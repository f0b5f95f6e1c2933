import Mathlib.Data.List.Induction
import Mathlib.Tactic.SplitIfs
import ModelGateway.Settings.Path

/-!
# Texts of variables

The text of a variable becomes a truth value, a number or a text, whatever its setting is for. A
setting that is a text is then written anew.

* **Decimal forms** (`Setting.intChars_eq_iff`): a whole number is written as it was read exactly if
  it was written without a plus sign and without needless zeros.
* **Texts** (`Setting.reread_eq_iff`): which texts come back as they were.
-/

namespace ModelGateway

/-! ## Decimal forms -/

namespace Decimal

/-- The value of a digit. -/
theorem digit_value {c : Char} (h : c.isDigit = true) :
    48 + (c.toNat - '0'.toNat) = c.toNat ∧ c.toNat - '0'.toNat < 10 := by
  have hrange : 48 ≤ c.toNat ∧ c.toNat ≤ 57 := Char.isDigit_iff_toNat.mp h
  have hvalue : 48 + (c.toNat - '0'.toNat) = c.toNat := Nat.add_sub_cancel' hrange.1
  exact ⟨hvalue, by omega⟩

/-- A digit is the decimal form of its value. -/
theorem digitChars_digit {c : Char} (h : c.isDigit = true) :
    digitChars (c.toNat - '0'.toNat) = [c] := by
  have hdigit : ∀ n < 10, Nat.digitChar n = Char.ofNat (48 + n) := by decide
  obtain ⟨hvalue, hlt⟩ := digit_value h
  unfold digitChars
  rw [Nat.toDigits_of_lt_base hlt, hdigit _ hlt, hvalue, Char.ofNat_toNat]

/-- The value of digits with one more. -/
theorem ofDigitChars_concat (digits : List Char) (c : Char) :
    ofDigitChars (digits ++ [c]) = ofDigitChars digits * 10 + (c.toNat - '0'.toNat) := by
  unfold ofDigitChars
  rw [List.foldl_append]
  rfl

/-- The decimal form of a number with one more digit. -/
theorem digitChars_concat {n : Nat} (h : 0 < n) {c : Char} (hc : c.isDigit = true) :
    digitChars (n * 10 + (c.toNat - '0'.toNat)) = digitChars n ++ [c] := by
  obtain ⟨-, hlt⟩ := digit_value hc
  rw [← digitChars_digit hc]
  unfold digitChars
  rw [Nat.toDigits_append_toDigits (by decide) h hlt, Nat.mul_comm]

/-- Digits that do not begin with a zero have a value that is not zero. -/
theorem ofDigitChars_pos {digits : List Char} (hne : digits ≠ [])
    (hdigits : ∀ c ∈ digits, c.isDigit = true) (hzero : digits.head? ≠ some '0') :
    0 < ofDigitChars digits := by
  induction digits using List.reverseRecOn with
  | nil => exact absurd rfl hne
  | append_singleton rest c ih =>
    rw [ofDigitChars_concat]
    cases rest with
    | nil =>
      obtain ⟨hvalue, -⟩ := digit_value (hdigits c List.mem_cons_self)
      have hchar : c.toNat ≠ 48 := by
        intro h
        exact hzero (congrArg some (Char.toNat_inj.mp h))
      omega
    | cons first others =>
      have hpos := ih (List.cons_ne_nil _ _) (fun c hc => hdigits c (List.mem_append_left _ hc))
        hzero
      omega

/-- Digits without needless zeros are the decimal form of their value. -/
theorem digitChars_ofDigitChars {digits : List Char} (hne : digits ≠ [])
    (hdigits : ∀ c ∈ digits, c.isDigit = true) (hzero : digits.head? = some '0' → digits = ['0']) :
    digitChars (ofDigitChars digits) = digits := by
  induction digits using List.reverseRecOn with
  | nil => exact absurd rfl hne
  | append_singleton rest c ih =>
    have hc := hdigits c (List.mem_append_right _ (List.mem_singleton_self c))
    rw [ofDigitChars_concat]
    cases rest with
    | nil =>
      have hvalue : ofDigitChars [] * 10 + (c.toNat - '0'.toNat) = c.toNat - '0'.toNat :=
        Nat.zero_add _
      rw [hvalue, digitChars_digit hc]
      rfl
    | cons first others =>
      have hrest : ∀ c ∈ first :: others, c.isDigit = true :=
        fun c hc => hdigits c (List.mem_append_left _ hc)
      have hfirst : (first :: others).head? ≠ some '0' := by
        intro h
        exact absurd (congrArg List.length (hzero h)) (by simp)
      have hpos := ofDigitChars_pos (List.cons_ne_nil _ _) hrest hfirst
      rw [digitChars_concat hpos hc, ih (List.cons_ne_nil _ _) hrest fun h => absurd h hfirst]

/-- The decimal form of a number that is not zero does not begin with a zero. -/
theorem head?_digitChars {n : Nat} (h : 0 < n) : (digitChars n).head? ≠ some '0' := by
  unfold digitChars
  induction n using Nat.strongRecOn with
  | ind n ih =>
    rw [Nat.toDigits_eq_if (by decide)]
    split_ifs with hlt
    · have hdigit : ∀ n < 10, 0 < n → Nat.digitChar n ≠ '0' := by decide
      intro hhead
      exact hdigit n hlt h (Option.some.inj hhead)
    · obtain ⟨c, rest, hdigits⟩ := List.exists_cons_of_ne_nil
        (Nat.toDigits_ne_nil : Nat.toDigits 10 (n / 10) ≠ [])
      have hhead := ih (n / 10) (by omega) (by omega)
      rw [hdigits] at hhead ⊢
      exact hhead

end Decimal

namespace Setting

/-- A whole number is written without a plus sign and without needless zeros. -/
def IsPlainWhole (cs : List Char) : Prop :=
  ∃ digits, digits ≠ [] ∧ (∀ c ∈ digits, c.isDigit = true) ∧
    (digits.head? = some '0' → cs = ['0']) ∧ (cs = digits ∨ cs = '-' :: digits)

/-- The decimal form of a whole number is without a plus sign and without needless zeros. -/
theorem isPlainWhole_intChars (n : Int) : IsPlainWhole (Decimal.intChars n) := by
  refine ⟨Decimal.digitChars n.natAbs, Nat.toDigits_ne_nil, ?_, ?_, ?_⟩
  · intro c hc
    exact Nat.isDigit_of_mem_toDigits (by decide) (by decide) hc
  · intro hhead
    have hzero : n = 0 := by
      by_contra hne
      exact Decimal.head?_digitChars (Int.natAbs_pos.mpr hne) hhead
    rw [hzero]
    rfl
  · unfold Decimal.intChars
    split_ifs
    · exact .inr rfl
    · exact .inl rfl

/-- The number that digits after a sign give. -/
theorem signed_eq_some {negative : Bool} {digits : List Char} {n : Int}
    (h : (if digits.isEmpty || !digits.all Char.isDigit then none
      else int64? (if negative then -(Decimal.ofDigitChars digits : Int)
        else Decimal.ofDigitChars digits)) = some n) :
    digits ≠ [] ∧ (∀ c ∈ digits, c.isDigit = true) ∧
      n = if negative then -(Decimal.ofDigitChars digits : Int)
        else Decimal.ofDigitChars digits := by
  by_cases hdigits : (digits.isEmpty || !digits.all Char.isDigit) = true
  · rw [if_pos hdigits] at h
    cases h
  · rw [if_neg hdigits] at h
    rw [Bool.or_eq_true, not_or, Bool.not_eq_true', Bool.not_eq_false, List.all_eq_true,
      List.isEmpty_iff] at hdigits
    exact ⟨hdigits.1, hdigits.2, (int64?_eq_some_iff.mp h).2.symm⟩

/-- What reads as a whole number is digits after an optional sign. -/
theorem exists_digits_of_readInt? {cs : List Char} {n : Int} (h : readInt? cs = some n) :
    ∃ digits, digits ≠ [] ∧ (∀ c ∈ digits, c.isDigit = true) ∧
      ((cs = digits ∨ cs = '+' :: digits) ∧ n = Decimal.ofDigitChars digits ∨
        cs = '-' :: digits ∧ n = -(Decimal.ofDigitChars digits : Int)) := by
  unfold readInt? at h
  split at h
  rename_i negative digits hsplit
  obtain ⟨hne, hdigits, hn⟩ := signed_eq_some h
  refine ⟨digits, hne, hdigits, ?_⟩
  split at hsplit
  · cases hsplit
    exact .inr ⟨rfl, hn⟩
  · cases hsplit
    exact .inl ⟨.inr rfl, hn⟩
  · cases hsplit
    exact .inl ⟨.inl rfl, hn⟩

/-- Digits without needless zeros are the written form of their number. -/
theorem intChars_of_digits {digits : List Char} (hne : digits ≠ [])
    (hdigits : ∀ c ∈ digits, c.isDigit = true) (hzero : digits.head? = some '0' → digits = ['0']) :
    Decimal.intChars (Decimal.ofDigitChars digits) = digits := by
  unfold Decimal.intChars
  rw [if_neg (by omega), Int.natAbs_natCast]
  exact Decimal.digitChars_ofDigitChars hne hdigits hzero

/-- Digits that do not begin with a zero are, after a minus sign, the written form of their number.
-/
theorem intChars_of_minus {digits : List Char} (hne : digits ≠ [])
    (hdigits : ∀ c ∈ digits, c.isDigit = true) (hhead : digits.head? ≠ some '0') :
    Decimal.intChars (-(Decimal.ofDigitChars digits : Int)) = '-' :: digits := by
  have hpos := Decimal.ofDigitChars_pos hne hdigits hhead
  unfold Decimal.intChars
  rw [if_pos (by omega), Int.natAbs_neg, Int.natAbs_natCast,
    Decimal.digitChars_ofDigitChars hne hdigits fun h => absurd h hhead]

/-- A whole number is written as it was read exactly if it was read without a plus sign and without
needless zeros. -/
theorem intChars_eq_iff {cs : List Char} {n : Int} (h : readInt? cs = some n) :
    Decimal.intChars n = cs ↔ IsPlainWhole cs := by
  constructor
  · rintro rfl
    exact isPlainWhole_intChars n
  · rintro ⟨digits, hne, hdigits, hzero, hcs⟩
    obtain ⟨read, -, hread, hsigned⟩ := exists_digits_of_readInt? h
    -- the digits that were read are these, since neither begin with a sign
    rcases hcs with rfl | rfl
    · rcases hsigned with ⟨rfl | rfl, rfl⟩ | ⟨rfl, -⟩
      · exact intChars_of_digits hne hdigits hzero
      · exact absurd (hdigits '+' List.mem_cons_self) (by decide)
      · exact absurd (hdigits '-' List.mem_cons_self) (by decide)
    · have hhead : digits.head? ≠ some '0' := by
        intro hhead
        exact absurd (List.cons.inj (hzero hhead)).1 (by decide)
      have hn : n = -(Decimal.ofDigitChars digits : Int) := by
        rcases hsigned with ⟨hplain | hplus, -⟩ | ⟨hminus, hn⟩
        · exact absurd (hread '-' (hplain ▸ List.mem_cons_self)) (by decide)
        · cases hplus
        · cases hminus
          exact hn
      rw [hn]
      exact intChars_of_minus hne hdigits hhead

/-! ## Texts -/

/-- What the text of a variable stands for. -/
inductive Stands (s : String) : Setting → Prop
  | truth (b : Bool) (word : Text.lower s = if b then "true" else "false") : Stands s (.bool b)
  | whole (n : Int) (word : Text.lower s ≠ "true" ∧ Text.lower s ≠ "false")
      (read : readInt? s.toList = some n) : Stands s (.int n)
  | double (x : AnyDouble) (word : Text.lower s ≠ "true" ∧ Text.lower s ≠ "false")
      (whole : readInt? s.toList = none) (read : AnyDouble.read? s.toList = some x) :
      Stands s (.float x)
  | text (word : Text.lower s ≠ "true" ∧ Text.lower s ≠ "false")
      (whole : readInt? s.toList = none) (double : AnyDouble.read? s.toList = none) :
      Stands s (.text s)

/-- The text of a variable stands for its setting. -/
theorem stands_ofVariable (s : String) : Stands s (ofVariable s) := by
  unfold ofVariable
  split
  · rename_i hword
    exact .truth true hword
  · rename_i hword
    exact .truth false hword
  · rename_i htrue hfalse
    cases hwhole : readInt? s.toList with
    | some n => exact .whole n ⟨htrue, hfalse⟩ hwhole
    | none =>
      cases hdouble : AnyDouble.read? s.toList with
      | some x => exact .double x ⟨htrue, hfalse⟩ hwhole hdouble
      | none => exact .text ⟨htrue, hfalse⟩ hwhole hdouble

/-- A text stays as it is when it is the text of a variable: a truth value is in lower case, a whole
number has neither a plus sign nor needless zeros, and another number is in its shortest form
without an exponent. -/
structure Stays (s : String) : Prop where
  truth : Text.lower s = "true" ∨ Text.lower s = "false" → s = Text.lower s
  whole : ∀ n, readInt? s.toList = some n → IsPlainWhole s.toList
  double : readInt? s.toList = none → ∀ x, AnyDouble.read? s.toList = some x → x.plainText = s

/-- A word for a truth value stays. -/
theorem stays_of_word (b : Bool) : Stays (if b then "true" else "false") := by
  have hread : readInt? (if b then "true" else "false").toList = none ∧
      AnyDouble.read? (if b then "true" else "false").toList = none := by
    cases b <;> decide
  refine ⟨?_, ?_, ?_⟩
  · intro _
    cases b <;> decide
  · intro n hn
    rw [hread.1] at hn
    cases hn
  · intro _ x hx
    rw [hread.2] at hx
    cases hx

/-- A text that is no word for a truth value stays exactly if it does as a number. -/
theorem stays_iff_of_not_word {s : String}
    (h : Text.lower s ≠ "true" ∧ Text.lower s ≠ "false") :
    Stays s ↔ (∀ n, readInt? s.toList = some n → IsPlainWhole s.toList) ∧
      (readInt? s.toList = none → ∀ x, AnyDouble.read? s.toList = some x → x.plainText = s) := by
  constructor
  · exact fun hstays => ⟨hstays.whole, hstays.double⟩
  · exact fun hnumber => ⟨fun hword => absurd hword (not_or.mpr h), hnumber.1, hnumber.2⟩

/-- The text of a variable comes back as it was exactly if it stays. -/
theorem toText?_ofVariable_iff (s : String) : (ofVariable s).toText? = some s ↔ Stays s := by
  have hstands := stands_ofVariable s
  generalize ofVariable s = value at hstands
  cases hstands with
  | truth b word =>
    rw [toText?, Option.some_inj]
    constructor
    · rintro rfl
      exact stays_of_word b
    · intro hstays
      have hword : Text.lower s = "true" ∨ Text.lower s = "false" := by
        cases b with
        | true => exact .inl word
        | false => exact .inr word
      exact word.symm.trans (hstays.truth hword).symm
  | whole n word read =>
    rw [toText?, Option.some_inj, ← String.toList_inj, String.toList_ofList, intChars_eq_iff read,
      stays_iff_of_not_word word, read]
    constructor
    · exact fun hplain => ⟨fun _ _ => hplain, nofun⟩
    · exact fun hnumber => hnumber.1 n rfl
  | double x word whole read =>
    rw [toText?, Option.some_inj, stays_iff_of_not_word word, whole, read]
    constructor
    · intro hform
      refine ⟨nofun, ?_⟩
      intro _ y hy
      cases hy
      exact hform
    · exact fun hnumber => hnumber.2 rfl x rfl
  | text word whole double =>
    rw [stays_iff_of_not_word word, whole, double]
    exact iff_of_true rfl ⟨nofun, nofun⟩

/-- The text of a double is not empty. -/
theorem double_plainText_ne_empty (x : Double) : x.plainText ≠ "" := by
  have hdigits : ∀ n, Decimal.digitChars n ≠ [] := fun n => Nat.toDigits_ne_nil
  intro hempty
  unfold Double.plainText at hempty
  by_cases hzero : x.mantissa = 0
  · simp [hzero] at hempty
  · rw [if_neg hzero] at hempty
    dsimp only at hempty
    rw [String.ofList_eq_empty_iff, List.append_eq_nil_iff] at hempty
    obtain ⟨-, hbody⟩ := hempty
    split_ifs at hbody <;> simp [hdigits] at hbody

/-- The text of a number is not empty. -/
theorem plainText_ne_empty (x : AnyDouble) : x.plainText ≠ "" := by
  cases x with
  | nan => decide
  | infinite negative => cases negative <;> decide
  | finite d => exact double_plainText_ne_empty d

/-- A variable that is not empty stands for a setting with a text that is not empty. -/
theorem exists_toText?_ofVariable {s : String} (hs : s ≠ "") :
    ∃ text, (ofVariable s).toText? = some text ∧ text ≠ "" := by
  have hstands := stands_ofVariable s
  generalize ofVariable s = value at hstands
  cases hstands with
  | truth b =>
    refine ⟨_, rfl, ?_⟩
    cases b <;> decide
  | whole n =>
    refine ⟨_, rfl, ?_⟩
    obtain ⟨digits, hne, -, -, hcs⟩ := isPlainWhole_intChars n
    rw [Ne, String.ofList_eq_empty_iff]
    rcases hcs with hcs | hcs
    · rwa [hcs]
    · rw [hcs]
      exact List.cons_ne_nil _ _
  | double x => exact ⟨x.plainText, rfl, plainText_ne_empty x⟩
  | text => exact ⟨s, rfl, hs⟩

/-- What the text of a variable becomes where a text is wanted. -/
def reread (s : String) : String :=
  (ofVariable s).toText?.getD ""

/-- A variable that is not empty stands for a setting with a text. -/
theorem toText?_ofVariable {s : String} (hs : s ≠ "") :
    (ofVariable s).toText? = some (reread s) := by
  obtain ⟨text, htext, -⟩ := exists_toText?_ofVariable hs
  unfold reread
  rw [htext, Option.getD_some]

/-- A text that is not empty does not become empty. -/
theorem reread_ne_empty {s : String} (hs : s ≠ "") : reread s ≠ "" := by
  obtain ⟨text, htext, hne⟩ := exists_toText?_ofVariable hs
  unfold reread
  rwa [htext, Option.getD_some]

/-- A text becomes itself exactly if it stays. -/
theorem reread_eq_iff {s : String} (hs : s ≠ "") : reread s = s ↔ Stays s := by
  rw [← toText?_ofVariable_iff, toText?_ofVariable hs, Option.some_inj]

/-- A setting that has a text is neither null nor a table, and merges as itself. -/
theorem merge_of_toText? {value : Setting} {text : String} (h : value.toText? = some text) :
    value.isNull = false ∧ ∀ present : Setting, present.merge value = value := by
  cases value with
  | null | list _ | table _ => cases h
  | bool _ | int _ | float _ | text _ => exact ⟨rfl, fun _ => rfl⟩

end Setting

end ModelGateway
