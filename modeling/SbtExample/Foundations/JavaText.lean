import Mathlib

/-! # Java texts: `String.split`, `Integer.valueOf` and `String.compareTo`

`split` cuts at one character and drops the empty pieces at the end; a text without the character is
its own single piece. `valueOf` reads decimal digits of any script after an optional sign, `none`
stands for a `NumberFormatException`. `compareTo` orders the UTF-16 code units; of the difference it
returns only the sign is kept.
-/
set_option autoImplicit false
set_option maxHeartbeats 250000

namespace SbtExample.JavaText

/-! ## Pieces -/

def split (text : String) (c : Char) : List String :=
  match text.toList.splitOn c with
  | [_] => [text]
  | pieces => (pieces.rdropWhile (· = [])).map String.ofList

/-- A text with the character once, and something after it, has two pieces. -/
theorem split_pair {text left right : String} {c : Char}
    (htext : text.toList = left.toList ++ c :: right.toList) (hleft : c ∉ left.toList)
    (hright : c ∉ right.toList) (hne : right ≠ "") : split text c = [left, right] := by
  have hpieces : text.toList.splitOn c = [left.toList, right.toList] := by
    rw [htext, List.splitOn_append_cons_self_of_not_mem hleft, List.splitOn_eq_singleton hright]
  have hlast : ¬ decide (right.toList = []) = true := by
    simpa using hne
  have hkept : [left.toList, right.toList].rdropWhile (· = []) = [left.toList, right.toList] :=
    List.rdropWhile_concat_neg _ [left.toList] _ hlast
  unfold split
  rw [hpieces]
  simp only [hkept, List.map_cons, List.map_nil, String.ofList_toList]

/-! ## Integers -/

/-- The digits zero of the Basic Multilingual Plane. -/
def zeroDigits : List ℕ :=
  [0x0030, 0x0660, 0x06F0, 0x07C0, 0x0966, 0x09E6, 0x0A66, 0x0AE6, 0x0B66, 0x0BE6, 0x0C66, 0x0CE6,
    0x0D66, 0x0E50, 0x0ED0, 0x0F20, 0x1040, 0x1090, 0x17E0, 0x1810, 0x1946, 0x19D0, 0x1A80, 0x1A90,
    0x1B50, 0x1BB0, 0x1C40, 0x1C50, 0xA620, 0xA8D0, 0xA900, 0xA9D0, 0xAA50, 0xABF0, 0xFF10]

/-- `Character.digit(c, 10)`. -/
def digit (c : Char) : Option ℕ :=
  (zeroDigits.find? fun z => decide (z ≤ c.toNat ∧ c.toNat < z + 10)).map fun z => c.toNat - z

/-- The value of the digits `cs` after the value `n`. -/
def accumulate : ℕ → List Char → Option ℕ
  | n, [] => some n
  | n, c :: cs => (digit c).bind fun d => accumulate (10 * n + d) cs

def inRange (i : ℤ) : Option Int32 :=
  if -2 ^ 31 ≤ i ∧ i < 2 ^ 31 then some (Int32.ofInt i) else none

/-- At least one digit. -/
def magnitude : List Char → Option ℕ
  | [] => none
  | c :: cs => accumulate 0 (c :: cs)

def valueOf (text : String) : Option Int32 :=
  match text.toList with
  | '-' :: cs => (magnitude cs).bind fun n => inRange (-n)
  | '+' :: cs => (magnitude cs).bind fun n => inRange n
  | cs => (magnitude cs).bind fun n => inRange n

theorem digit_of_accumulate {cs : List Char} {n m : ℕ} (h : accumulate n cs = some m) (c : Char)
    (hc : c ∈ cs) : digit c ≠ none := by
  induction cs generalizing n with
  | nil => cases hc
  | cons c' cs ih =>
    obtain ⟨d, hd, hm⟩ := Option.bind_eq_some_iff.mp h
    rcases List.mem_cons.mp hc with rfl | hc
    · rw [hd]
      exact Option.some_ne_none d
    · exact ih hm hc

theorem digit_of_magnitude {cs : List Char} {f : ℕ → Option Int32} {i : Int32}
    (h : (magnitude cs).bind f = some i) (c : Char) (hc : c ∈ cs) : digit c ≠ none := by
  obtain ⟨n, hn, -⟩ := Option.bind_eq_some_iff.mp h
  cases cs with
  | nil => cases hc
  | cons c' cs => exact digit_of_accumulate hn c hc

/-- Signs and digits only. -/
theorem mem_of_valueOf {text : String} {i : Int32} (h : valueOf text = some i) (c : Char)
    (hc : c ∈ text.toList) : c = '-' ∨ c = '+' ∨ digit c ≠ none := by
  unfold valueOf at h
  split at h
  next cs heq =>
    rcases List.mem_cons.mp (heq ▸ hc) with rfl | hc
    · exact Or.inl rfl
    · exact Or.inr (Or.inr (digit_of_magnitude h c hc))
  next cs heq =>
    rcases List.mem_cons.mp (heq ▸ hc) with rfl | hc
    · exact Or.inr (Or.inl rfl)
    · exact Or.inr (Or.inr (digit_of_magnitude h c hc))
  next => exact Or.inr (Or.inr (digit_of_magnitude h c hc))

theorem ne_empty_of_valueOf {text : String} {i : Int32} (h : valueOf text = some i) :
    text ≠ "" := by
  rintro rfl
  cases h

example : valueOf "-2147483648" = some (-2147483648) ∧ valueOf "2147483648" = none := by decide

/-! ## Comparing -/

/-- One unit, or a surrogate pair. -/
def codeUnits (c : Char) : List UInt16 :=
  if c.toNat < 0x10000 then [UInt16.ofNat c.toNat]
  else
    [UInt16.ofNat (0xD800 + (c.toNat - 0x10000) / 0x400),
      UInt16.ofNat (0xDC00 + (c.toNat - 0x10000) % 0x400)]

def toCharArray (text : String) : List UInt16 := text.toList.flatMap codeUnits

/-- At the first difference, then by length. -/
def compareTo (text other : String) : Ordering := compare (toCharArray text) (toCharArray other)

theorem codeUnits_ne_nil (c : Char) : codeUnits c ≠ [] := by
  unfold codeUnits
  split_ifs <;> exact List.cons_ne_nil _ _

theorem eq_of_unit_eq {m n : ℕ} (hm : m < 2 ^ 16) (hn : n < 2 ^ 16)
    (h : UInt16.ofNat m = UInt16.ofNat n) : m = n := by
  have h' := congrArg UInt16.toNat h
  rwa [UInt16.toNat_ofNat_of_lt' hm, UInt16.toNat_ofNat_of_lt' hn] at h'

/-- No character is a surrogate, so the first unit says how many there are. -/
theorem codeUnits_append_inj {c d : Char} {us vs : List UInt16}
    (h : codeUnits c ++ us = codeUnits d ++ vs) : c = d ∧ us = vs := by
  have hc : c.toNat < 0xD800 ∨ 0xDFFF < c.toNat ∧ c.toNat < 0x110000 := c.valid
  have hd : d.toNat < 0xD800 ∨ 0xDFFF < d.toNat ∧ d.toNat < 0x110000 := d.valid
  unfold codeUnits at h
  split_ifs at h with h1 h2 h2 <;>
    simp only [List.cons_append, List.nil_append, List.cons.injEq] at h
  · exact ⟨Char.toNat_inj.mp (eq_of_unit_eq h1 h2 h.1), h.2⟩
  · have := eq_of_unit_eq h1 (by omega) h.1
    omega
  · have := eq_of_unit_eq (by omega) h2 h.1
    omega
  · have hi := eq_of_unit_eq (by omega) (by omega) h.1
    have lo := eq_of_unit_eq (by omega) (by omega) h.2.1
    exact ⟨Char.toNat_inj.mp (by omega), h.2.2⟩

theorem flatMap_codeUnits_inj {cs ds : List Char}
    (h : cs.flatMap codeUnits = ds.flatMap codeUnits) : cs = ds := by
  induction cs generalizing ds with
  | nil =>
    cases ds with
    | nil => rfl
    | cons d ds => exact absurd (List.append_eq_nil_iff.mp h.symm).1 (codeUnits_ne_nil d)
  | cons c cs ih =>
    cases ds with
    | nil => exact absurd (List.append_eq_nil_iff.mp h).1 (codeUnits_ne_nil c)
    | cons d ds =>
      obtain ⟨rfl, hcs⟩ := codeUnits_append_inj h
      rw [ih hcs]

theorem toCharArray_injective : Function.Injective toCharArray :=
  fun _ _ h => String.toList_injective (flatMap_codeUnits_inj h)

/-- A character outside the Basic Multilingual Plane comes before the last ones of that plane. -/
example : compareTo "😀" "ﬀ" = .lt ∧ compareTo "hi" "hi!" = .lt := by decide +kernel

end SbtExample.JavaText
