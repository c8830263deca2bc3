import Mathlib.Algebra.Group.Nat.Defs
import FluxMarks.Text.Hex

/-!
# Hexadecimal numbers

A number is written in lowercase digits, in no more of them than it needs
(`length_digits_le`), and is read back whatever zeros are put in front of it
(`nat?_ofNatPadded`). So a number that fits into some places takes exactly
these when it is filled up to them (`length_ofNatPadded`).
-/

namespace FluxMarks.Hex

/-- A digit as numbers and bytes are written with: in lowercase. -/
def IsDigit (c : Char) : Prop :=
  ('0' ≤ c ∧ c ≤ '9') ∨ ('a' ≤ c ∧ c ≤ 'f')

instance : DecidablePred IsDigit :=
  fun c => inferInstanceAs (Decidable (('0' ≤ c ∧ c ≤ '9') ∨ ('a' ≤ c ∧ c ≤ 'f')))

theorem isDigit_digit {n : Nat} (h : n < 16) : IsDigit (digit n) := by
  have all : ∀ i : Fin 16, IsDigit (digit i.val) := by decide
  exact all ⟨n, h⟩

theorem IsDigit.isAlphanum {c : Char} (h : IsDigit c) : c.isAlphanum = true := by
  rcases h with ⟨hlow, hhigh⟩ | ⟨hlow, hhigh⟩
  · have hdigit : c.isDigit = true :=
      Bool.and_eq_true_iff.mpr ⟨decide_eq_true hlow, decide_eq_true hhigh⟩
    rw [Char.isAlphanum, hdigit, Bool.or_true]
  · have hlower : c.isLower = true :=
      Bool.and_eq_true_iff.mpr
        ⟨decide_eq_true hlow, decide_eq_true (UInt32.le_trans hhigh (by decide))⟩
    have halpha : c.isAlpha = true := Bool.or_eq_true_iff.mpr (Or.inr hlower)
    rw [Char.isAlphanum, halpha, Bool.true_or]

/-! ## Digits of a number -/

theorem digits_ne_nil (n : Nat) : digits n ≠ [] := by
  rw [digits]
  split <;> simp

theorem isDigit_of_mem_digits {n : Nat} {c : Char} (h : c ∈ digits n) : IsDigit c := by
  induction n using digits.induct with
  | case1 n hn =>
      rw [digits, if_pos hn, List.mem_singleton] at h
      rw [h]
      exact isDigit_digit hn
  | case2 n hn ih =>
      rw [digits, if_neg hn, List.mem_append, List.mem_singleton] at h
      rcases h with h | h
      · exact ih h
      · rw [h]
        exact isDigit_digit (Nat.mod_lt _ (by decide))

theorem length_digits_le {n places : Nat} (h : n < 16 ^ (places + 1)) :
    (digits n).length ≤ places + 1 := by
  induction places generalizing n with
  | zero =>
      rw [Nat.zero_add, pow_one] at h
      rw [digits, if_pos h]
      exact Nat.le_refl 1
  | succ places ih =>
      rw [digits]
      split
      · exact Nat.succ_le_succ (Nat.zero_le _)
      · rw [List.length_append, List.length_singleton]
        exact Nat.succ_le_succ (ih (Nat.div_lt_of_lt_mul (by rwa [pow_succ'] at h)))

theorem isDigit_of_mem_ofNatPadded {width n : Nat} {c : Char}
    (h : c ∈ (ofNatPadded width n).toList) : IsDigit c := by
  rw [ofNatPadded, String.toList_ofList, paddedDigits, List.leftpad, List.mem_append] at h
  rcases h with h | h
  · rw [List.eq_of_mem_replicate h]
    decide
  · exact isDigit_of_mem_digits h

theorem length_ofNatPadded {places n : Nat} (h : n < 16 ^ (places + 1)) :
    (ofNatPadded (places + 1) n).length = places + 1 := by
  have := length_digits_le h
  rw [ofNatPadded, String.length_ofList, paddedDigits, List.leftpad, List.length_append,
    List.length_replicate]
  omega

/-! ## Reading a number -/

theorem foldlM_digits (n : Nat) :
    (digits n).foldlM (fun n c => (value? c).map (16 * n + ·)) 0 = some n := by
  induction n using digits.induct with
  | case1 n hn =>
      rw [digits, if_pos hn]
      simp [value?_digit hn]
  | case2 n hn ih =>
      have hlast : n % 16 < 16 := Nat.mod_lt _ (by decide)
      rw [digits, if_neg hn, List.foldlM_append, ih]
      simp [value?_digit hlast, Nat.div_add_mod]

/-- Zeros in front of a number add nothing to it. -/
theorem foldlM_zeros_append (zeros : Nat) (cs : List Char) :
    (List.replicate zeros '0' ++ cs).foldlM (fun n c => (value? c).map (16 * n + ·)) 0
      = cs.foldlM (fun n c => (value? c).map (16 * n + ·)) 0 := by
  induction zeros with
  | zero => rfl
  | succ zeros ih =>
      rw [List.replicate_succ, List.cons_append, List.foldlM_cons]
      exact ih

theorem nat?_ofNatPadded (width n : Nat) : nat? (ofNatPadded width n) = some n := by
  have hread :
      (paddedDigits width n).foldlM (fun n c => (value? c).map (16 * n + ·)) 0 = some n := by
    rw [paddedDigits, List.leftpad, foldlM_zeros_append, foldlM_digits]
  unfold nat?
  rw [ofNatPadded, String.toList_ofList]
  split
  · next hnil =>
      simp [paddedDigits, List.leftpad, digits_ne_nil] at hnil
  · exact hread

/-! ## Digits of bytes -/

theorem isDigit_of_mem_ofBytes {bytes : List UInt8} {c : Char}
    (h : c ∈ (ofBytes bytes).toList) : IsDigit c := by
  rw [ofBytes, String.toList_ofList, List.mem_flatMap] at h
  obtain ⟨b, -, hb⟩ := h
  simp only [byteDigits, List.mem_cons, List.not_mem_nil, or_false] at hb
  rcases hb with rfl | rfl
  · have := b.toNat_lt
    exact isDigit_digit (by omega)
  · exact isDigit_digit (Nat.mod_lt _ (by decide))

end FluxMarks.Hex
