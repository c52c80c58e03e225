/-!
Where one text occurs in another.
-/

namespace SetScaler.Text

/-- Whether `part` occurs in `text`, as a run of neighbouring characters. -/
def occursIn (part : List Char) : List Char → Bool
  | [] => part.isEmpty
  | c :: rest => part.isPrefixOf (c :: rest) || occursIn part rest

/-- Whether `text` contains `part`; the empty text is contained in every text. -/
def contains (text part : String) : Bool :=
  occursIn part.toList text.toList

/-- The characters before and after the last `mark`, when there is one. -/
def splitLast (mark : Char) (text : List Char) : Option (List Char × List Char) :=
  let tail := text.reverse.takeWhile (· != mark)
  match text.reverse.dropWhile (· != mark) with
  | [] => none
  | _ :: head => some (head.reverse, tail.reverse)

theorem occursIn_iff {part text : List Char} : occursIn part text = true ↔ part <:+: text := by
  induction text with
  | nil => simp [occursIn]
  | cons c rest ih => simp [occursIn, ih, List.infix_cons_iff, List.isPrefixOf_iff_prefix]

theorem splitLast_append {mark : Char} {head tail : List Char} (clean : mark ∉ tail) :
    splitLast mark (head ++ mark :: tail) = some (head, tail) := by
  have skip : ∀ c ∈ tail.reverse, (c != mark) = true := by
    intro c hc
    simp only [List.mem_reverse] at hc
    simpa using fun h : c = mark => clean (h ▸ hc)
  simp [splitLast, List.takeWhile_append_of_pos skip, List.dropWhile_append_of_pos skip]

end SetScaler.Text
