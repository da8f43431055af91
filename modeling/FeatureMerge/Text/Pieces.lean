/-!
# Pieces between separators

`pieces sep s` cuts a text at every separator, `joined sep` puts pieces
together again.
-/

namespace FeatureMerge.Text

def pieces (sep : Char) (s : String) : List String :=
  (s.toList.splitOn sep).map String.ofList

def joined (sep : Char) (parts : List String) : String :=
  String.ofList ([sep].intercalate (parts.map String.toList))

/-- What follows `start` in `s`, if `s` begins with it. -/
def after? (start s : String) : Option String :=
  (start.toList.isPrefixOf? s.toList).map String.ofList

end FeatureMerge.Text
