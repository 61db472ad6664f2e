import StepWeave.Proofs.Hook.Pattern
import StepWeave.Proofs.Hook.Reading

/-!
# Hook names as patterns

A hook name is read by two patterns, one for each order of keyword and id.  Their runs
compete with the separator for its character: the one before a separator is lazy and so
leaves it, the one after it only gets what the separator does not take.  Each finds the reading
that there is (`readBy_firstForm_eq_some_iff`, `readBy_lastForm_eq_some_iff`).
-/

namespace StepWeave

/-- The placement of which the word is the keyword, in any case. -/
def Placement.ofWord? (word : List Char) : Option Placement :=
  [after, before, replace].find? fun placement => word.map Char.toLower = placement.keyword

namespace Hook

/-- The word, in any case. -/
def anyCase : List Char → Pattern
  | [] => .nothing
  | w :: word => .seq (.one fun c => c.toLower = w) (anyCase word)

def keyword : Pattern :=
  .either (anyCase "after".toList) (.either (anyCase "before".toList) (anyCase "replace".toList))

def separator : Pattern := .optional (.one isSeparator)

/-- Something on one line. -/
def line (greedy : Bool) : Pattern := .run greedy (· ≠ '\n')

def finalLine : Pattern := .seq (.group 2 (line true)) .stop

def finalKeyword : Pattern := .seq (.group 2 keyword) .stop

/-- A keyword, and an id as the second group. -/
def firstForm : Pattern := .seq (.group 1 keyword) (.seq separator finalLine)

/-- An id, and a keyword as the second group. -/
def lastForm : Pattern := .seq (.group 1 (line false)) (.seq separator finalKeyword)

def IsKeyword (word : List Char) : Prop := ∃ placement, Spells word placement

/-- Nothing, or a separator. -/
def IsGap (text : List Char) : Prop := text = [] ∨ ∃ c, text = [c] ∧ isSeparator c = true

/-- What a pattern makes of a hook if its groups of these numbers are the keyword and the
id. -/
def readBy (form : Pattern) (keywordGroup targetGroup : Nat) (hook : List Char) :
    Option Reading := do
  let way ← form.first? hook
  let word ← way.group? keywordGroup
  let target ← way.group? targetGroup
  let placement ← Placement.ofWord? word
  return ⟨placement, target⟩

/-- How the first form matches a hook. -/
def FirstWay (hook : List Char) (way : Way) : Prop :=
  ∃ word rest, hook = word ++ rest ∧ IsKeyword word ∧ IsLine rest ∧
    way = ⟨hook, [(1, word), (2, dropFirstSeparator rest)], []⟩

/-- How the last form matches a hook. -/
def LastWay (hook : List Char) (way : Way) : Prop :=
  ∃ rest word, hook = rest ++ word ∧ IsKeyword word ∧ IsLine rest ∧
    way = ⟨hook, [(1, dropLastSeparator rest), (2, word)], []⟩

/-! ## Parts of the forms -/

theorem ofWord?_eq_some_iff {word : List Char} {placement : Placement} :
    Placement.ofWord? word = some placement ↔ Spells word placement := by
  rw [spells_iff, Placement.ofWord?]
  constructor
  · intro h
    simpa using List.find?_some h
  · intro h
    rw [h]
    cases placement <;> decide

theorem takes_anyCase (word : List Char) :
    (anyCase word).Takes fun taken => taken.map Char.toLower = word := by
  induction word with
  | nil => exact Pattern.takes_nothing.congr fun taken => List.map_eq_nil_iff.symm
  | cons w word ih =>
      refine (Pattern.takes_one.seq ih).congr fun taken => ?_
      rw [List.map_eq_cons_iff]
      constructor
      · rintro ⟨_, rest, rfl, ⟨c, rfl, hc⟩, hrest⟩
        exact ⟨c, rest, rfl, of_decide_eq_true hc, hrest⟩
      · rintro ⟨c, rest, rfl, hc, hrest⟩
        exact ⟨[c], rest, rfl, ⟨c, rfl, decide_eq_true hc⟩, hrest⟩

theorem takes_keyword : keyword.Takes IsKeyword := by
  refine ((takes_anyCase _).either ((takes_anyCase _).either (takes_anyCase _))).congr
    fun taken => ?_
  simp only [IsKeyword, spells_iff]
  constructor
  · rintro (h | h | h)
    · exact ⟨.after, h⟩
    · exact ⟨.before, h⟩
    · exact ⟨.replace, h⟩
  · rintro ⟨placement, h⟩
    cases placement with
    | after => exact .inl h
    | before => exact .inr (.inl h)
    | replace => exact .inr (.inr h)

theorem takes_line (greedy : Bool) : (line greedy).Takes IsLine := by
  refine Pattern.takes_run.congr fun taken => and_congr_right fun _ => ?_
  simp only [decide_eq_true_eq, List.forall_mem_ne']

theorem isLine_separator_cons {c : Char} {rest : List Char} (hc : isSeparator c = true)
    (hne : rest ≠ []) : IsLine (c :: rest) ↔ IsLine rest := by
  have hbreak : '\n' ≠ c := by
    rintro rfl
    exact absurd hc (by decide)
  simp [IsLine, hne, hbreak]

theorem isLine_append_gap {target gap : List Char} (hline : IsLine target) (hgap : IsGap gap) :
    IsLine (target ++ gap) := by
  obtain rfl | ⟨c, rfl, hc⟩ := hgap
  · rwa [List.append_nil]
  · rw [← isLine_reverse_iff] at hline ⊢
    rw [List.reverse_append]
    exact (isLine_separator_cons hc hline.1).2 hline

/-! ## A keyword first -/

section

variable {hook text : List Char} {way way' : Way}

theorem first?_finalLine :
    finalLine.first? text = some way ↔ IsLine text ∧ way = ⟨text, [(2, text)], []⟩ :=
  Pattern.first?_group_stop (takes_line true)

theorem first?_one_finalLine :
    (Pattern.seq (.one isSeparator) finalLine).first? text = some way ↔
      ∃ c rest, text = c :: rest ∧ isSeparator c = true ∧ IsLine rest ∧
        way = ⟨text, [(2, rest)], []⟩ := by
  rw [Pattern.first?_one_seq]
  constructor
  · rintro ⟨c, rest, _, rfl, hc, hfirst, rfl⟩
    obtain ⟨hrest, rfl⟩ := first?_finalLine.1 hfirst
    exact ⟨c, rest, rfl, hc, hrest, rfl⟩
  · rintro ⟨c, rest, rfl, hc, hrest, rfl⟩
    exact ⟨c, rest, _, rfl, hc, first?_finalLine.2 ⟨hrest, rfl⟩, rfl⟩

/-- A separator after the keyword is taken unless nothing would remain. -/
theorem first?_separator_finalLine :
    (Pattern.seq separator finalLine).first? text = some way ↔
      IsLine text ∧ way = ⟨text, [(2, dropFirstSeparator text)], []⟩ := by
  rw [separator, Pattern.first?_optional_seq, Option.or_eq_some_iff, first?_one_finalLine,
    first?_finalLine, Option.eq_none_iff_forall_ne_some]
  constructor
  · rintro (⟨c, rest, rfl, hc, hrest, rfl⟩ | ⟨hnone, hline, rfl⟩)
    · rw [dropFirstSeparator_cons, if_pos ⟨hc, hrest.1⟩]
      exact ⟨(isLine_separator_cons hc hrest.1).2 hrest, rfl⟩
    · refine ⟨hline, ?_⟩
      obtain ⟨c, rest, rfl⟩ := List.exists_cons_of_ne_nil hline.1
      rw [dropFirstSeparator_cons, if_neg]
      rintro ⟨hc, hne⟩
      have hrest := (isLine_separator_cons hc hne).1 hline
      exact hnone _ (first?_one_finalLine.2 ⟨c, rest, rfl, hc, hrest, rfl⟩)
  · rintro ⟨hline, rfl⟩
    obtain ⟨c, rest, rfl⟩ := List.exists_cons_of_ne_nil hline.1
    rw [dropFirstSeparator_cons]
    split
    next hdrop =>
      have hrest := (isLine_separator_cons hdrop.1 hdrop.2).1 hline
      exact .inl ⟨c, rest, rfl, hdrop.1, hrest, rfl⟩
    next hdrop =>
      refine .inr ⟨fun u hu => ?_, hline, rfl⟩
      obtain ⟨d, rest', heq, hd, hrest, -⟩ := first?_one_finalLine.1 hu
      obtain ⟨rfl, rfl⟩ := List.cons.inj heq
      exact hdrop ⟨hd, hrest.1⟩

theorem FirstWay.unique (h : FirstWay hook way) (h' : FirstWay hook way') : way = way' := by
  obtain ⟨word, rest, rfl, ⟨p, hp⟩, -, rfl⟩ := h
  obtain ⟨word', rest', heq, ⟨q, hq⟩, -, rfl⟩ := h'
  obtain ⟨-, rfl⟩ := spells_unique_first heq hp hq
  rw [List.append_cancel_right heq]

theorem first?_firstForm : firstForm.first? hook = some way ↔ FirstWay hook way := by
  rw [firstForm, Pattern.first?_seq]
  refine findSome?_eq_some_iff_of_unique ?_ ?_ fun _ _ => FirstWay.unique
  · intro v hv u hu
    obtain ⟨word, rest, rfl, hword, rfl⟩ := (Pattern.mem_ways_group takes_keyword).1 hv
    obtain ⟨_, hfirst, rfl⟩ := Option.map_eq_some_iff.1 hu
    obtain ⟨hline, rfl⟩ := first?_separator_finalLine.1 hfirst
    exact ⟨word, rest, rfl, hword, hline, rfl⟩
  · rintro _ ⟨word, rest, rfl, hword, hline, rfl⟩
    refine ⟨_, (Pattern.mem_ways_group takes_keyword).2 ⟨word, rest, rfl, hword, rfl⟩, ?_⟩
    rw [first?_separator_finalLine.2 ⟨hline, rfl⟩]
    rfl

end

/-! ## A keyword last -/

section

variable {hook text : List Char} {way : Way}

theorem first?_finalKeyword :
    finalKeyword.first? text = some way ↔ IsKeyword text ∧ way = ⟨text, [(2, text)], []⟩ :=
  Pattern.first?_group_stop takes_keyword

/-- What an id leaves is a keyword, with a separator before it or without. -/
theorem first?_separator_finalKeyword :
    (Pattern.seq separator finalKeyword).first? text = some way ↔
      ∃ gap word, text = gap ++ word ∧ IsGap gap ∧ IsKeyword word ∧
        way = ⟨text, [(2, word)], []⟩ := by
  rw [separator, Pattern.first?_optional_seq, Option.or_eq_some_iff, Pattern.first?_one_seq]
  constructor
  · rintro (⟨c, rest, _, rfl, hc, hfirst, rfl⟩ | ⟨-, hfirst⟩)
    · obtain ⟨hword, rfl⟩ := first?_finalKeyword.1 hfirst
      exact ⟨[c], rest, rfl, .inr ⟨c, rfl, hc⟩, hword, rfl⟩
    · obtain ⟨hword, rfl⟩ := first?_finalKeyword.1 hfirst
      exact ⟨[], text, rfl, .inl rfl, hword, rfl⟩
  · rintro ⟨_, word, rfl, rfl | ⟨c, rfl, hc⟩, hword, rfl⟩
    · have hfirst := first?_finalKeyword.2 ⟨hword, rfl⟩
      refine .inr ⟨Option.eq_none_iff_forall_ne_some.2 fun u hu => ?_, hfirst⟩
      obtain ⟨c, rest, v, htext, -, hv, -⟩ := Pattern.first?_one_seq.1 hu
      obtain ⟨p, hp⟩ := hword
      obtain ⟨⟨q, hq⟩, -⟩ := first?_finalKeyword.1 hv
      have heq : [] ++ word = [c] ++ rest := htext
      exact List.cons_ne_nil c [] (spells_unique_last heq hp hq).2.symm
    · exact .inl ⟨c, word, _, rfl, hc, first?_finalKeyword.2 ⟨hword, rfl⟩, rfl⟩

theorem dropLastSeparator_of_separator {target : List Char} {c : Char} (hne : target ≠ [])
    (hc : isSeparator c = true) : dropLastSeparator (target ++ [c]) = target := by
  have hlength : 2 ≤ (target ++ [c]).length := by
    rw [List.length_append, List.length_singleton]
    exact Nat.succ_le_succ (List.length_pos_iff.2 hne)
  rw [dropLastSeparator, if_pos ⟨by simpa using hc, hlength⟩, List.dropLast_concat]

theorem exists_eq_dropLastSeparator_append {rest : List Char} (hline : IsLine rest) :
    ∃ gap, rest = dropLastSeparator rest ++ gap ∧ IsLine (dropLastSeparator rest) ∧ IsGap gap := by
  rw [dropLastSeparator]
  split
  next hdrop =>
    obtain ⟨target, c, rfl⟩ := (List.eq_nil_or_concat' rest).resolve_left hline.1
    rw [List.dropLast_concat]
    have hne : target ≠ [] := by
      rintro rfl
      exact absurd hdrop.2 (by simp)
    have htarget : IsLine target := ⟨hne, fun hmem => hline.2 (List.mem_append_left [c] hmem)⟩
    exact ⟨[c], rfl, htarget, .inr ⟨c, rfl, by simpa using hdrop.1⟩⟩
  next hdrop => exact ⟨[], (List.append_nil rest).symm, hline, .inl rfl⟩

/-- The ways to match an id from which the last form can go on. -/
theorem exists_of_mem_ways_line {v u : Way}
    (hv : v ∈ (Pattern.group 1 (line false)).ways hook)
    (hu : ((Pattern.seq separator finalKeyword).first? v.rest).map v.andThen = some u) :
    ∃ gap word, hook = v.taken ++ gap ++ word ∧ IsLine v.taken ∧ IsGap gap ∧ IsKeyword word := by
  obtain ⟨taken, _, rfl, htaken, rfl⟩ := (Pattern.mem_ways_group (takes_line false)).1 hv
  obtain ⟨_, hfirst, -⟩ := Option.map_eq_some_iff.1 hu
  obtain ⟨gap, word, rfl, hgap, hword, -⟩ := first?_separator_finalKeyword.1 hfirst
  exact ⟨gap, word, (List.append_assoc ..).symm, htaken, hgap, hword⟩

theorem first?_lastForm_of_isLine {rest word : List Char} (hline : IsLine rest)
    (hword : IsKeyword word) :
    lastForm.first? (rest ++ word) =
      some ⟨rest ++ word, [(1, dropLastSeparator rest), (2, word)], []⟩ := by
  obtain ⟨gap, hrest, htarget, hgap⟩ := exists_eq_dropLastSeparator_append hline
  rw [lastForm, Pattern.first?_seq]
  have hway : (⟨dropLastSeparator rest, [(1, dropLastSeparator rest)], gap ++ word⟩ : Way) ∈
      (Pattern.group 1 (line false)).ways (rest ++ word) := by
    refine (Pattern.mem_ways_group (takes_line false)).2 ⟨_, gap ++ word, ?_, htarget, rfl⟩
    rw [← List.append_assoc, ← hrest]
  refine findSome?_eq_some_of_least (fun v => v.taken.length) Pattern.pairwise_ways_group_run
    hway ?_ ?_
  · rw [first?_separator_finalKeyword.2 ⟨gap, word, rfl, hgap, hword, rfl⟩, Option.map_some,
      Way.andThen, ← List.append_assoc, ← hrest]
    rfl
  -- Whatever id can go on leaves at most a separator, and then takes none at its end.
  · intro v hv u hu
    obtain ⟨gap', word', heq, htaken, hgap', ⟨q, hq⟩⟩ := exists_of_mem_ways_line hv hu
    obtain ⟨p, hp⟩ := hword
    obtain ⟨-, rfl⟩ := spells_unique_last heq hp hq
    obtain rfl | ⟨c, rfl, hc⟩ := hgap'
    · rw [List.append_nil] at hrest ⊢
      exact (List.prefix_append ..).length_le.trans (congrArg List.length hrest).ge
    · rw [dropLastSeparator_of_separator htaken.1 hc]

theorem first?_lastForm : lastForm.first? hook = some way ↔ LastWay hook way := by
  constructor
  · intro h
    have hfirst := h
    rw [lastForm, Pattern.first?_seq] at hfirst
    obtain ⟨v, hv, hvway⟩ := List.exists_of_findSome?_eq_some hfirst
    obtain ⟨gap, word, rfl, htaken, hgap, hword⟩ := exists_of_mem_ways_line hv hvway
    have hline := isLine_append_gap htaken hgap
    rw [first?_lastForm_of_isLine hline hword] at h
    exact ⟨v.taken ++ gap, word, rfl, hword, hline, (Option.some.inj h).symm⟩
  · rintro ⟨rest, word, rfl, hword, hline, rfl⟩
    exact first?_lastForm_of_isLine hline hword

end

/-! ## Readings -/

section

variable {hook : List Char} {r : Reading}

theorem readBy_eq_some_iff {form : Pattern} {keywordGroup targetGroup : Nat} :
    readBy form keywordGroup targetGroup hook = some r ↔
      ∃ way word, form.first? hook = some way ∧ way.group? keywordGroup = some word ∧
        Spells word r.placement ∧ way.group? targetGroup = some r.target := by
  obtain ⟨placement, target⟩ := r
  simp only [readBy, Option.bind_eq_bind, Option.bind_eq_some_iff, ofWord?_eq_some_iff,
    Option.pure_def, Option.some.injEq, Reading.mk.injEq]
  constructor
  · rintro ⟨way, hway, word, hword, target', htarget, placement', hspells, rfl, rfl⟩
    exact ⟨way, word, hway, hword, hspells, htarget⟩
  · rintro ⟨way, word, hway, hword, hspells, htarget⟩
    exact ⟨way, hway, word, hword, target, htarget, placement, hspells, rfl, rfl⟩

theorem readBy_firstForm_eq_some_iff : readBy firstForm 1 2 hook = some r ↔ ReadsFirst hook r := by
  rw [readBy_eq_some_iff]
  constructor
  · rintro ⟨_, word', hfirst, hgroup, hword', htarget⟩
    obtain ⟨word, rest, rfl, -, hline, rfl⟩ := first?_firstForm.1 hfirst
    obtain rfl : word = word' := Option.some.inj hgroup
    exact ⟨word, rest, rfl, hword', hline, (Option.some.inj htarget).symm⟩
  · rintro ⟨word, rest, rfl, hword, hline, htarget⟩
    have hfirst := first?_firstForm.2 ⟨word, rest, rfl, ⟨_, hword⟩, hline, rfl⟩
    exact ⟨_, word, hfirst, rfl, hword, congrArg some htarget.symm⟩

theorem readBy_lastForm_eq_some_iff : readBy lastForm 2 1 hook = some r ↔ ReadsLast hook r := by
  rw [readBy_eq_some_iff]
  constructor
  · rintro ⟨_, word', hfirst, hgroup, hword', htarget⟩
    obtain ⟨rest, word, rfl, -, hline, rfl⟩ := first?_lastForm.1 hfirst
    obtain rfl : word = word' := Option.some.inj hgroup
    exact ⟨rest, word, rfl, hword', hline, (Option.some.inj htarget).symm⟩
  · rintro ⟨rest, word, rfl, hword, hline, htarget⟩
    have hfirst := first?_lastForm.2 ⟨rest, word, rfl, ⟨_, hword⟩, hline, rfl⟩
    exact ⟨_, word, hfirst, rfl, hword, congrArg some htarget.symm⟩

end

end Hook

end StepWeave
