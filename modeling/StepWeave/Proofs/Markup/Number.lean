import Mathlib.Data.List.Basic
import Mathlib.Tactic.IntervalCases
import StepWeave.Markup.Content

/-!
# Numbers written in decimal

A natural number that is written out in decimal digits is read as that number, and as nothing
else: it is no absent value, no truth value and no decimal with a point.
-/

namespace StepWeave.Markup

namespace Number

variable {n : Nat}

/-! ## Digits -/

theorem isDigit_of_mem {c : Char} (hc : c ∈ Nat.toDigits 10 n) : c.isDigit = true :=
  Nat.isDigit_of_mem_toDigits (by omega) (by omega) hc

theorem hexDigit?_of_isDigit {c : Char} (h : c.isDigit = true) :
    hexDigit? c = some (c.toNat - '0'.toNat) := by
  rw [hexDigit?, if_pos h]

theorem foldlM_digits {cs : List Char} (h : ∀ c ∈ cs, c.isDigit = true) (m : Nat) :
    cs.foldlM (fun n d => do
      let d ← (hexDigit? d).filter (· < 10)
      return n * 10 + d) m = some (Nat.ofDigitChars 10 cs m) := by
  induction cs generalizing m with
  | nil => rfl
  | cons c rest ih =>
      obtain ⟨hc, hrest⟩ := List.forall_mem_cons.1 h
      have hlt : c.toNat - '0'.toNat < 10 := by
        have hbounds := Char.isDigit_iff_toNat.1 hc
        simp at hbounds ⊢
        omega
      rw [List.foldlM_cons, hexDigit?_of_isDigit hc]
      simp only [Option.filter, hlt, decide_true, if_true, Option.bind_eq_bind, Option.bind_some]
      rw [Nat.ofDigitChars_cons, Nat.mul_comm 10 m]
      exact ih hrest _

theorem ofDigits?_toDigits (n : Nat) : ofDigits? 10 (Nat.toDigits 10 n) = some n := by
  have hne : (Nat.toDigits 10 n).isEmpty = false := by simp [Nat.toDigits_ne_nil]
  rw [ofDigits?, hne]
  exact (foldlM_digits (fun _ => isDigit_of_mem) 0).trans
    (congrArg some (Nat.ofDigitChars_toDigits (by omega) (by omega)))

/-! ## Whole numbers -/

theorem head?_toDigits (hn : n ≠ 0) : (Nat.toDigits 10 n).head? ≠ some '0' := by
  induction n using Nat.strongRecOn with
  | ind n ih =>
      rw [Nat.toDigits_eq_if (by omega)]
      split
      next hlt =>
        interval_cases n <;> first | contradiction | decide
      next hge =>
        rw [List.head?_append_of_ne_nil _ Nat.toDigits_ne_nil]
        exact ih (n / 10) (by omega) (by omega)

/-- The digits of a number are a zero alone, or begin with another digit. -/
theorem toDigits_eq_or (n : Nat) :
    Nat.toDigits 10 n = ['0'] ∨ ∃ d rest, d ≠ '0' ∧ Nat.toDigits 10 n = d :: rest := by
  by_cases hn : n = 0
  · exact .inl (by rw [hn]; rfl)
  · cases hdigits : Nat.toDigits 10 n with
    | nil => exact absurd hdigits Nat.toDigits_ne_nil
    | cons d rest =>
        refine .inr ⟨d, rest, ?_, rfl⟩
        rintro rfl
        exact head?_toDigits hn (by rw [hdigits]; rfl)

theorem magnitude?_cons {d : Char} {rest : List Char} (hd : d ≠ '0') :
    magnitude? (d :: rest) = ofDigits? 10 (d :: rest) := by
  have hpadded : isPadded (d :: rest) = false := by
    unfold isPadded
    split
    next heq => exact absurd (List.cons.inj heq).1 hd
    next => rfl
  unfold magnitude?
  split
  next heq => exact absurd (List.cons.inj heq).1 hd
  next heq => exact absurd (List.cons.inj heq).1 hd
  next heq => exact absurd (List.cons.inj heq).1 hd
  next => rw [hpadded]; rfl

theorem magnitude?_toDigits (n : Nat) : magnitude? (Nat.toDigits 10 n) = some n := by
  obtain heq | ⟨d, rest, hd, heq⟩ := toDigits_eq_or n
  · calc magnitude? (Nat.toDigits 10 n) = ofDigits? 10 (Nat.toDigits 10 n) := by rw [heq]; rfl
      _ = some n := ofDigits?_toDigits n
  · calc magnitude? (Nat.toDigits 10 n) = ofDigits? 10 (Nat.toDigits 10 n) := by
          rw [heq, magnitude?_cons hd]
      _ = some n := ofDigits?_toDigits n

theorem ofChars?_toDigits (n : Nat) : Whole.ofChars? (Nat.toDigits 10 n) = some ⟨false, n⟩ := by
  have hvalue := magnitude?_toDigits n
  cases hdigits : Nat.toDigits 10 n with
  | nil => exact absurd hdigits Nat.toDigits_ne_nil
  | cons d rest =>
      have hd : d.isDigit = true := isDigit_of_mem (hdigits ▸ List.mem_cons_self)
      rw [hdigits] at hvalue
      unfold Whole.ofChars?
      split
      next heq =>
        obtain ⟨rfl, -⟩ := List.cons.inj heq
        contradiction
      next heq =>
        obtain ⟨rfl, -⟩ := List.cons.inj heq
        contradiction
      next => rw [hvalue]; rfl

end Number

/-! ## Plain scalars -/

namespace Content

variable {n : Nat}

theorem toList_toString (n : Nat) : (toString n).toList = Nat.toDigits 10 n := by
  rw [Nat.toString_eq_repr, Nat.toList_repr]

/-- A number written in decimal is none of some words that have another character. -/
theorem toString_notMem {words : List String}
    (h : ∀ s ∈ words, s.toList.all Char.isDigit = false) : toString n ∉ words := by
  intro hmem
  have hall : (toString n).toList.all Char.isDigit = true := by
    rw [toList_toString, List.all_eq_true]
    exact fun _ => Number.isDigit_of_mem
  rw [h _ hmem] at hall
  contradiction

theorem isEmpty_toString (n : Nat) : (toString n).isEmpty = false := by
  rw [String.isEmpty_eq_false_iff, ← String.toList_inj.ne, toList_toString]
  exact Nat.toDigits_ne_nil

theorem isNullWord_toString (n : Nat) : Tree.isNullWord (toString n) = false :=
  decide_eq_false (toString_notMem (by decide +kernel))

theorem bool?_toString (n : Nat) : bool? (toString n) = none := by
  rw [bool?, if_neg (toString_notMem (by decide +kernel)),
    if_neg (toString_notMem (by decide +kernel))]

theorem ofInt?_toString (h : n < UInt64.size) :
    ofInt? (toString n) = some (some (.count n)) := by
  have hfits : (⟨false, n⟩ : Number.Whole).fits 64 = true := by
    simpa [Number.Whole.fits] using h
  rw [ofInt?, toList_toString, Number.ofChars?_toDigits]
  simp only [hfits]
  rfl

/-- A number of at most 64 bits is read back from its digits. -/
theorem ofPlain?_toString (h : n < UInt64.size) : ofPlain? (toString n) = some (.count n) := by
  rw [ofPlain?, isEmpty_toString, isNullWord_toString, bool?_toString, ofInt?_toString h]
  rfl

end Content

end StepWeave.Markup
