/-!
YAML documents made of mappings, sequences and plain words, and how they are laid out in lines.
-/

namespace SetScaler

/-- A YAML value whose scalars need no quotes. -/
inductive Yaml where
  | word (text : String)
  | sequence (items : List Yaml)
  | mapping (entries : List (String × Yaml))
deriving Inhabited, Repr

namespace Yaml

def dashed : List String → List String
  | [] => []
  | first :: rest => ("- " ++ first) :: rest.map ("  " ++ ·)

mutual

def lines : Yaml → List String
  | .word text => [text]
  | .sequence items => itemLines items
  | .mapping entries => entryLines entries

def itemLines : List Yaml → List String
  | [] => []
  | item :: rest => dashed item.lines ++ itemLines rest

/-- The lines of a mapping's entries. A sequence under a key is not indented, a mapping is. -/
def entryLines : List (String × Yaml) → List String
  | [] => []
  | (key, value) :: rest =>
    (match value with
      | .word text => [key ++ ": " ++ text]
      | .sequence [] => [key ++ ": []"]
      | .mapping [] => [key ++ ": \x7b\x7d"]
      | .sequence items => (key ++ ":") :: itemLines items
      | .mapping entries => (key ++ ":") :: (entryLines entries).map ("  " ++ ·)) ++
    entryLines rest

end

def text (yaml : Yaml) : String := String.join (yaml.lines.map (· ++ "\n"))

end Yaml
end SetScaler
