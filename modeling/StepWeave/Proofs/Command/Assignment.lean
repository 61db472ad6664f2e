import Mathlib.Data.List.TakeWhile
import StepWeave.Command.Assignment

/-!
# Which texts are pairs

A text is read as a pair just when it is a key that is not empty, an equals sign and a value,
where the key ends at the first equals sign of the text (`Command.parsePair_exact`).  So joining
a key and a value is undone by reading, and a text is a pair in no more than one way.
-/

namespace StepWeave.Command

/-- The text is `key`, an equals sign and `value`, where no equals sign comes before that one. -/
structure IsPair (s key value : String) : Prop where
  key_ne : key ≠ ""
  no_sign : '=' ∉ key.toList
  eq_append : s = key ++ "=" ++ value

variable {s key value : String}

/-! ## Splitting at the first equals sign -/

theorem toList_join (key value : String) :
    (key ++ "=" ++ value).toList = key.toList ++ '=' :: value.toList := by
  rw [String.toList_append, String.toList_append, List.append_assoc]
  rfl

/-- A text without an equals sign, or one that is split at its first. -/
theorem not_mem_or_exists_join (s : String) :
    '=' ∉ s.toList ∨ ∃ key value, '=' ∉ key.toList ∧ s = key ++ "=" ++ value := by
  by_cases hmem : '=' ∈ s.toList
  · obtain ⟨front, rest, hsplit, hfront⟩ := List.eq_append_cons_of_mem hmem
    refine .inr ⟨String.ofList front, String.ofList rest, ?_, ?_⟩
    · rwa [String.toList_ofList]
    · rw [← String.toList_inj, toList_join, String.toList_ofList, String.toList_ofList, hsplit]
  · exact .inl hmem

theorem ne_sign_of_mem {cs : List Char} (h : '=' ∉ cs) : ∀ c ∈ cs, decide (c ≠ '=') = true := by
  intro c hc
  exact decide_eq_true fun heq => h (heq ▸ hc)

theorem takeWhile_join (h : '=' ∉ key.toList) :
    (key ++ "=" ++ value).toList.takeWhile (· ≠ '=') = key.toList := by
  rw [toList_join, List.takeWhile_append_of_pos (ne_sign_of_mem h)]
  simp

theorem dropWhile_join (h : '=' ∉ key.toList) :
    (key ++ "=" ++ value).toList.dropWhile (· ≠ '=') = '=' :: value.toList := by
  rw [toList_join, List.dropWhile_append_of_pos (ne_sign_of_mem h)]
  simp

theorem join_inj {key' value' : String} (h : '=' ∉ key.toList) (h' : '=' ∉ key'.toList)
    (heq : key ++ "=" ++ value = key' ++ "=" ++ value') : key = key' ∧ value = value' := by
  have hkey : key.toList = key'.toList := by rw [← takeWhile_join h, heq, takeWhile_join h']
  have hrest : '=' :: value.toList = '=' :: value'.toList := by
    rw [← dropWhile_join h, heq, dropWhile_join h']
  exact ⟨String.toList_inj.1 hkey, String.toList_inj.1 (List.cons.inj hrest).2⟩

theorem IsPair.unique {key' value' : String} (h : IsPair s key value)
    (h' : IsPair s key' value') : key = key' ∧ value = value' :=
  join_inj h.no_sign h'.no_sign (h.eq_append.symm.trans h'.eq_append)

/-! ## Reading -/

theorem parsePair_of_not_mem (h : '=' ∉ s.toList) : parsePair s = .error ⟨s⟩ := by
  have hrest : s.toList.dropWhile (· ≠ '=') = [] :=
    List.dropWhile_eq_nil_iff.2 (ne_sign_of_mem h)
  rw [parsePair, hrest]

theorem parsePair_join (h : '=' ∉ key.toList) (value : String) :
    parsePair (key ++ "=" ++ value) =
      if key = "" then .error ⟨key ++ "=" ++ value⟩ else .ok (key, value) := by
  simp only [parsePair, takeWhile_join h, dropWhile_join h, String.ofList_toList]
  simp

theorem IsPair.parsePair_eq (h : IsPair s key value) : parsePair s = .ok (key, value) := by
  rw [h.eq_append, parsePair_join h.no_sign, if_neg h.key_ne]

theorem parsePair_eq_ok_iff : parsePair s = .ok (key, value) ↔ IsPair s key value := by
  constructor
  · intro hread
    obtain hnone | ⟨key', value', hsign, rfl⟩ := not_mem_or_exists_join s
    · rw [parsePair_of_not_mem hnone] at hread
      contradiction
    · rw [parsePair_join hsign] at hread
      split at hread
      · contradiction
      next hne =>
        cases hread
        exact ⟨hne, hsign, rfl⟩
  · exact IsPair.parsePair_eq

theorem parsePair_eq_error_iff {e : NotAPair} :
    parsePair s = .error e ↔ e = ⟨s⟩ ∧ ('=' ∉ s.toList ∨ ∃ rest, s = "=" ++ rest) := by
  obtain hnone | ⟨key, value, hsign, rfl⟩ := not_mem_or_exists_join s
  · rw [parsePair_of_not_mem hnone]
    simp [hnone, eq_comm]
  · have hmem : '=' ∈ (key ++ "=" ++ value).toList := by simp
    rw [parsePair_join hsign]
    split
    next hempty =>
      subst hempty
      simp [eq_comm]
    next hne =>
      refine iff_of_false (by simp) fun ⟨_, hbad⟩ => hbad.elim (fun h => h hmem) ?_
      -- A text that starts with the sign has the empty key, and no other.
      rintro ⟨rest, heq⟩
      have hempty : "" ++ "=" ++ rest = "=" ++ rest := by simp
      exact hne (join_inj hsign (by simp) (heq.trans hempty.symm)).1

/-- Reading accepts just the texts that are pairs, with the one key and the one value that they
are made of.  It refuses just the texts that have no equals sign or begin with one, and names
the text that it refuses.  What is joined from a key and any value is read back. -/
theorem parsePair_exact :
    (∀ s key value, parsePair s = .ok (key, value) ↔
      key ≠ "" ∧ '=' ∉ key.toList ∧ s = key ++ "=" ++ value) ∧
    (∀ s e, parsePair s = .error e ↔
      e = ⟨s⟩ ∧ ('=' ∉ s.toList ∨ ∃ rest, s = "=" ++ rest)) ∧
    (∀ key value, key ≠ "" → '=' ∉ key.toList →
      parsePair (key ++ "=" ++ value) = .ok (key, value)) ∧
    ∀ s key value key' value', IsPair s key value → IsPair s key' value' →
      key = key' ∧ value = value' := by
  refine ⟨fun s key value => ?_, fun s e => parsePair_eq_error_iff, fun key value hne hsign => ?_,
    fun s key value key' value' => IsPair.unique⟩
  · rw [parsePair_eq_ok_iff]
    exact ⟨fun h => ⟨h.key_ne, h.no_sign, h.eq_append⟩, fun ⟨hne, hsign, heq⟩ => ⟨hne, hsign, heq⟩⟩
  · exact IsPair.parsePair_eq ⟨hne, hsign, rfl⟩

/-- The value may have equals signs of its own. -/
theorem parsePair_exact_start :
    "start" ≠ "" ∧ '=' ∉ "start".toList ∧ parsePair "start=a=b" = .ok ("start", "a=b") ∧
      parsePair "=x" = .error ⟨"=x"⟩ := by
  have hne : "start" ≠ "" := by decide
  have hsign : '=' ∉ "start".toList := by decide
  obtain ⟨-, hrefuses, hjoin, -⟩ := parsePair_exact
  exact ⟨hne, hsign, hjoin "start" "a=b" hne hsign, (hrefuses "=x" _).2 ⟨rfl, .inr ⟨"x", rfl⟩⟩⟩

end StepWeave.Command
