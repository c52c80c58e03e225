import SetScaler.Json.Reader
import SetScaler.Proofs.Number

/-!
# Numbers in a text

Whatever a text of JSON holds, its doubles are numbers (`Json.numeric_of_read?`).
-/

namespace SetScaler.Json

/-- A value without a double that is no number. -/
inductive Numeric : Json → Prop
  | null : Numeric .null
  | bool (value : Bool) : Numeric (.bool value)
  | int (value : Int) : Numeric (.int value)
  | float {value : Float} (number : value.isNaN = false) : Numeric (.float value)
  | str (value : String) : Numeric (.str value)
  | arr {items : List Json} (each : ∀ item ∈ items, Numeric item) : Numeric (.arr items)
  | obj {members : List (String × Json)} (each : ∀ member ∈ members, Numeric member.2) :
      Numeric (.obj members)
  | unreadable : Numeric .unreadable

theorem scaleFrom_number {steps : Nat} {value scaled : Float} {power : Int} (number : value.isNaN = false)
    (read : scaleFrom steps value power = some scaled) : scaled.isNaN = false := by
  induction steps generalizing value power with
  | zero =>
      cases read
      exact number
  | succ steps ih =>
      rw [scaleFrom] at read
      split at read
      · next small =>
          have finite := Double.ordinary_power small
          dsimp only at read
          split at read
          · split at read
            · cases read
            · cases read
              exact Double.isNaN_mul number finite
          · cases read
            exact Double.isNaN_div number finite
      · split at read
        · cases read
          exact number
        · split at read
          · cases read
          · exact ih (Double.isNaN_div number (Double.ordinary_power (Nat.le_refl 308))) read

theorem Literal.double_number {literal : Literal} {value : Float} (read : literal.double = some value) :
    value.isNaN = false := by
  obtain ⟨scaled, found, rfl⟩ := Option.map_eq_some_iff.mp read
  have number : scaled.isNaN = false := by
    split at found
    · cases found
      exact Double.isNaN_ofNat _
    · exact scaleFrom_number (Double.isNaN_ofNat _) found
  split
  · exact Double.isNaN_neg number
  · exact number

theorem Literal.toJson_numeric (literal : Literal) : literal.toJson.Numeric := by
  unfold toJson
  extract_lets magnitude exact
  split
  · exact .int _
  · split
    · next read => exact .float (double_number read)
    · exact .unreadable

theorem ofPieces_numeric (pieces : List Piece) : (ofPieces pieces).Numeric := by
  unfold ofPieces
  split
  · exact .str _
  · exact .unreadable

/-- A token whose value, if it has one, is numeric. -/
def Token.Numeric : Token → Prop
  | scalar value => value.Numeric
  | openArray | closeArray | openObject | closeObject | comma | colon => True

theorem token?_numeric {text rest : List Char} {token : Token} (read : token? text = some (token, rest)) :
    token.Numeric := by
  unfold token? at read
  split at read
  case h_1 | h_2 | h_3 | h_4 | h_5 | h_6 => cases read; trivial
  case h_7 =>
    obtain ⟨⟨pieces, _⟩, -, same⟩ := Option.map_eq_some_iff.mp read
    cases same
    exact ofPieces_numeric pieces
  case h_8 | h_9 => cases read; exact .bool _
  case h_10 => cases read; exact .null
  case h_11 =>
    obtain ⟨⟨literal, _⟩, -, same⟩ := Option.map_eq_some_iff.mp read
    cases same
    exact literal.toJson_numeric

theorem tokensWithin_numeric {limit : Nat} {text : List Char} {tokens : List Token}
    (read : tokensWithin limit text = some tokens) : ∀ token ∈ tokens, token.Numeric := by
  induction limit generalizing text tokens with
  | zero =>
      rw [tokensWithin] at read
      split at read
      · cases read
        exact fun _ absent => by cases absent
      · cases read
  | succ limit ih =>
      rw [tokensWithin] at read
      split at read
      · cases read
        exact fun _ absent => by cases absent
      · obtain ⟨⟨token, rest⟩, first, later⟩ := Option.bind_eq_some_iff.mp read
        obtain ⟨others, found, same⟩ := Option.bind_eq_some_iff.mp later
        cases same
        exact List.forall_mem_cons.mpr ⟨token?_numeric first, ih found⟩

/-- An open container of numeric values. -/
def Open.Numeric : Open → Prop
  | array items => ∀ item ∈ items, item.Numeric
  | object members _ => ∀ member ∈ members, member.2.Numeric

/-- What has been read before it is waited for something. -/
def Expect.Numeric : Expect → Prop
  | key members | colon members _ => ∀ member ∈ members, member.2.Numeric
  | next read => read.Numeric
  | value | firstItem | firstKey => True

theorem build_numeric {tokens : List Token} {stack : List Open} {expect : Expect} {json : Json}
    (scalars : ∀ token ∈ tokens, token.Numeric) (opened : ∀ container ∈ stack, container.Numeric)
    (before : expect.Numeric) (read : build tokens stack expect = some json) : json.Numeric := by
  have empty : (Open.array []).Numeric := List.forall_mem_nil _
  fun_induction build tokens stack expect with
  | case1 =>
      cases read
      exact before
  | case2 | case18 => cases read
  | case3 _ _ _ ih =>
      obtain ⟨here, others⟩ := List.forall_mem_cons.mp scalars
      exact ih others opened here read
  | case4 _ _ _ ih =>
      obtain ⟨here, others⟩ := List.forall_mem_cons.mp scalars
      exact ih others (List.forall_mem_cons.mpr ⟨empty, opened⟩) here read
  | case5 _ _ _ ih => exact ih (List.forall_mem_cons.mp scalars).2 opened (List.forall_mem_nil _) read
  | case6 _ _ _ _ ih => exact ih (List.forall_mem_cons.mp scalars).2 opened before read
  | case7 _ _ ih | case9 _ _ ih => exact ih (List.forall_mem_cons.mp scalars).2 opened trivial read
  | case8 _ _ ih | case10 _ _ ih =>
      exact ih (List.forall_mem_cons.mp scalars).2 (List.forall_mem_cons.mpr ⟨empty, opened⟩) trivial read
  | case11 _ _ ih =>
      exact ih (List.forall_mem_cons.mp scalars).2 opened (.arr (List.forall_mem_nil _)) read
  | case12 _ _ ih =>
      exact ih (List.forall_mem_cons.mp scalars).2 opened (.obj (List.forall_mem_nil _)) read
  | case13 _ _ _ _ ih =>
      exact ih (List.forall_mem_cons.mp scalars).2 (List.forall_mem_cons.mpr ⟨before, opened⟩) trivial read
  | case14 _ _ _ _ ih =>
      obtain ⟨top, below⟩ := List.forall_mem_cons.mp opened
      have longer : (Open.array (_ :: _)).Numeric := List.forall_mem_cons.mpr ⟨before, top⟩
      exact ih (List.forall_mem_cons.mp scalars).2 (List.forall_mem_cons.mpr ⟨longer, below⟩) trivial read
  | case15 _ _ _ _ ih =>
      obtain ⟨top, below⟩ := List.forall_mem_cons.mp opened
      have longer : (Open.array (_ :: _)).Numeric := List.forall_mem_cons.mpr ⟨before, top⟩
      refine ih (List.forall_mem_cons.mp scalars).2 below (.arr fun item mem => ?_) read
      exact longer item (List.mem_reverse.mp mem)
  | case16 _ _ _ _ _ ih =>
      obtain ⟨top, below⟩ := List.forall_mem_cons.mp opened
      exact ih (List.forall_mem_cons.mp scalars).2 below (List.forall_mem_cons.mpr ⟨before, top⟩) read
  | case17 _ _ _ _ _ ih =>
      obtain ⟨top, below⟩ := List.forall_mem_cons.mp opened
      refine ih (List.forall_mem_cons.mp scalars).2 below (.obj fun member mem => ?_) read
      rcases List.mem_cons.mp (List.mem_reverse.mp mem) with rfl | mem
      · exact before
      · exact top member mem

theorem numeric_of_read? {text : String} {json : Json} (read : read? text = some json) : json.Numeric := by
  obtain ⟨tokens, cut, built⟩ := Option.bind_eq_some_iff.mp read
  exact build_numeric (tokensWithin_numeric cut) (List.forall_mem_nil _) (show Expect.value.Numeric from trivial) built

end SetScaler.Json
