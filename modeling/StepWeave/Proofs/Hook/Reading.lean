import Mathlib.Data.List.Infix
import StepWeave.Hook
import StepWeave.Proofs.Lists

/-!
# What a hook name can be read as

Apart from the id of a step, a hook name can be a keyword with an id after it
(`Hook.ReadsFirst`) or an id with a keyword after it (`Hook.ReadsLast`).  There is at most one
reading of either kind, since no keyword begins or ends another one, and it is the one that
is searched for (`keywordFirst?_eq_some_iff`, `keywordLast?_eq_some_iff`).
-/

namespace StepWeave

namespace Hook

/-- The word is the keyword of the placement, in any case. -/
def Spells (word : List Char) (placement : Placement) : Prop :=
  sameIgnoringCase word placement.keyword = true

/-- Something on one line. -/
def IsLine (text : List Char) : Prop := text ≠ [] ∧ '\n' ∉ text

/-- A text without its first character if that is a separator and not all of it. -/
def dropFirstSeparator (text : List Char) : List Char :=
  if text.head?.any isSeparator ∧ 2 ≤ text.length then text.tail else text

/-- A text without its last character if that is a separator and not all of it. -/
def dropLastSeparator (text : List Char) : List Char :=
  if text.getLast?.any isSeparator ∧ 2 ≤ text.length then text.dropLast else text

/-- The hook is a keyword followed by something on the same line, which is the id but for a
separator. -/
def ReadsFirst (hook : List Char) (r : Reading) : Prop :=
  ∃ word rest, hook = word ++ rest ∧ Spells word r.placement ∧ IsLine rest ∧
    r.target = dropFirstSeparator rest

/-- The hook is a keyword after something on the same line, which is the id but for a
separator. -/
def ReadsLast (hook : List Char) (r : Reading) : Prop :=
  ∃ rest word, hook = rest ++ word ∧ Spells word r.placement ∧ IsLine rest ∧
    r.target = dropLastSeparator rest

/-! ## Keywords -/

theorem spells_iff {word : List Char} {placement : Placement} :
    Spells word placement ↔ word.map Char.toLower = placement.keyword := by
  have hlower : placement.keyword.map Char.toLower = placement.keyword := by
    cases placement <;> decide
  rw [Spells, sameIgnoringCase, hlower, beq_iff_eq]

theorem Spells.length_eq {word : List Char} {placement : Placement} (h : Spells word placement) :
    word.length = placement.keyword.length := by
  rw [← spells_iff.1 h, List.length_map]

theorem eq_of_isPrefix_keyword {p q : Placement} (h : p.keyword <+: q.keyword) : p = q := by
  cases p <;> cases q <;> first | rfl | exact absurd h (by decide)

theorem eq_of_isSuffix_keyword {p q : Placement} (h : p.keyword <:+ q.keyword) : p = q := by
  cases p <;> cases q <;> first | rfl | exact absurd h (by decide)

section

variable {word word' rest rest' : List Char} {p q : Placement}

/-- No two keywords begin one text. -/
theorem spells_unique_first (h : word ++ rest = word' ++ rest') (hp : Spells word p)
    (hq : Spells word' q) : p = q ∧ rest = rest' := by
  have hp' : p.keyword <+: (word ++ rest).map Char.toLower := by
    rw [List.map_append, spells_iff.1 hp]
    exact List.prefix_append ..
  have hq' : q.keyword <+: (word ++ rest).map Char.toLower := by
    rw [h, List.map_append, spells_iff.1 hq]
    exact List.prefix_append ..
  have hpq : p = q := by
    obtain hle | hle := List.prefix_or_prefix_of_prefix hp' hq'
    · exact eq_of_isPrefix_keyword hle
    · exact (eq_of_isPrefix_keyword hle).symm
  subst hpq
  exact ⟨rfl, (List.append_inj h (hp.length_eq.trans hq.length_eq.symm)).2⟩

/-- No two keywords end one text. -/
theorem spells_unique_last (h : rest ++ word = rest' ++ word') (hp : Spells word p)
    (hq : Spells word' q) : p = q ∧ rest = rest' := by
  have hp' : p.keyword <:+ (rest ++ word).map Char.toLower := by
    rw [List.map_append, spells_iff.1 hp]
    exact List.suffix_append ..
  have hq' : q.keyword <:+ (rest ++ word).map Char.toLower := by
    rw [h, List.map_append, spells_iff.1 hq]
    exact List.suffix_append ..
  have hpq : p = q := by
    obtain hle | hle := List.suffix_or_suffix_of_suffix hp' hq'
    · exact eq_of_isSuffix_keyword hle
    · exact (eq_of_isSuffix_keyword hle).symm
  subst hpq
  exact ⟨rfl, (List.append_inj' h (hp.length_eq.trans hq.length_eq.symm)).1⟩

end

section

variable {hook : List Char} {r r' : Reading}

theorem ReadsFirst.unique (h : ReadsFirst hook r) (h' : ReadsFirst hook r') : r = r' := by
  obtain ⟨p, target⟩ := r
  obtain ⟨q, target'⟩ := r'
  obtain ⟨word, rest, rfl, hp, -, rfl⟩ := h
  obtain ⟨word', rest', heq, hq, -, rfl⟩ := h'
  obtain ⟨rfl, rfl⟩ := spells_unique_first heq hp hq
  rfl

theorem ReadsLast.unique (h : ReadsLast hook r) (h' : ReadsLast hook r') : r = r' := by
  obtain ⟨p, target⟩ := r
  obtain ⟨q, target'⟩ := r'
  obtain ⟨rest, word, rfl, hp, -, rfl⟩ := h
  obtain ⟨rest', word', heq, hq, -, rfl⟩ := h'
  obtain ⟨rfl, rfl⟩ := spells_unique_last heq hp hq
  rfl

end

/-! ## Searches -/

theorem dropWord?_eq_some_iff {word text rest : List Char} :
    dropWord? word text = some rest ↔
      ∃ start, text = start ++ rest ∧ start.map Char.toLower = word := by
  induction word generalizing text with
  | nil => simp [dropWord?, eq_comm]
  | cons w word ih =>
      cases text with
      | nil => simp [dropWord?]
      | cons c text =>
          rw [dropWord?]
          split
          next hc =>
            rw [ih]
            constructor
            · rintro ⟨start, rfl, rfl⟩
              exact ⟨c :: start, rfl, by rw [List.map_cons, hc]⟩
            · rintro ⟨start, htext, hstart⟩
              obtain ⟨d, start, rfl, -, rfl⟩ := List.map_eq_cons_iff.1 hstart
              exact ⟨start, (List.cons.inj htext).2, rfl⟩
          next hc =>
            refine iff_of_false (by simp) ?_
            rintro ⟨start, htext, hstart⟩
            obtain ⟨d, start, rfl, rfl, -⟩ := List.map_eq_cons_iff.1 hstart
            exact hc (congrArg Char.toLower (List.cons.inj htext).1)

theorem dropFirstSeparator_cons (c : Char) (rest : List Char) :
    dropFirstSeparator (c :: rest) = if isSeparator c ∧ rest ≠ [] then rest else c :: rest := by
  cases rest <;> simp [dropFirstSeparator]

theorem target?_of_isLine {rest : List Char} (hline : IsLine rest) :
    target? rest = some (dropFirstSeparator rest) := by
  obtain ⟨c, more, rfl⟩ := List.exists_cons_of_ne_nil hline.1
  have hgood : ¬ ((c :: more).isEmpty || (c :: more).contains '\n') = true := by
    simpa using hline.2
  unfold target?
  rw [if_neg hgood, dropFirstSeparator_cons]
  cases more with
  | nil => simp
  | cons d more => by_cases hc : isSeparator c = true <;> simp [hc]

theorem target?_eq_some_iff {rest target : List Char} :
    target? rest = some target ↔ IsLine rest ∧ target = dropFirstSeparator rest := by
  by_cases hline : IsLine rest
  · rw [target?_of_isLine hline, Option.some.injEq, eq_comm, and_iff_right hline]
  · have hbad : (rest.isEmpty || rest.contains '\n') = true := by
      rw [Bool.or_eq_true, List.isEmpty_iff, List.contains_iff_mem]
      rw [IsLine] at hline
      tauto
    unfold target?
    rw [if_pos hbad]
    exact iff_of_false (by simp) fun h => hline h.1

theorem reverse_dropFirstSeparator (text : List Char) :
    (dropFirstSeparator text.reverse).reverse = dropLastSeparator text := by
  rw [dropFirstSeparator, dropLastSeparator, List.head?_reverse, List.length_reverse,
    List.tail_reverse]
  split <;> exact List.reverse_reverse _

theorem isLine_reverse_iff {text : List Char} : IsLine text.reverse ↔ IsLine text := by
  rw [IsLine, IsLine, Ne, List.reverse_eq_nil_iff, List.mem_reverse]

/-- A search through the placements finds the one reading that there is. -/
theorem findSome?_placements_eq_some_iff {f : Placement → Option Reading} {P : Reading → Prop}
    (hread : ∀ placement r, f placement = some r ↔ r.placement = placement ∧ P r)
    (hunique : ∀ r r', P r → P r' → r = r') {r : Reading} :
    [Placement.after, .before, .replace].findSome? f = some r ↔ P r := by
  refine findSome?_eq_some_iff_of_unique ?_ ?_ hunique
  · intro placement _ r h
    exact ((hread placement r).1 h).2
  · intro r hP
    refine ⟨r.placement, ?_, (hread _ r).2 ⟨rfl, hP⟩⟩
    cases r.placement <;> decide

theorem keywordFirst?_eq_some_iff {hook : List Char} {r : Reading} :
    keywordFirst? hook = some r ↔ ReadsFirst hook r := by
  refine findSome?_placements_eq_some_iff ?_ fun _ _ => ReadsFirst.unique
  rintro placement ⟨p, target⟩
  simp only [Option.map_eq_some_iff, Option.bind_eq_some_iff, dropWord?_eq_some_iff,
    target?_eq_some_iff, ← spells_iff, ReadsFirst, Reading.mk.injEq]
  constructor
  · rintro ⟨_, ⟨rest, ⟨word, rfl, hword⟩, hline, rfl⟩, rfl, rfl⟩
    exact ⟨rfl, word, rest, rfl, hword, hline, rfl⟩
  · rintro ⟨rfl, word, rest, rfl, hword, hline, rfl⟩
    exact ⟨_, ⟨rest, ⟨word, rfl, hword⟩, hline, rfl⟩, rfl, rfl⟩

theorem keywordLast?_eq_some_iff {hook : List Char} {r : Reading} :
    keywordLast? hook = some r ↔ ReadsLast hook r := by
  refine findSome?_placements_eq_some_iff ?_ fun _ _ => ReadsLast.unique
  rintro placement ⟨p, target⟩
  simp only [Option.map_eq_some_iff, Option.bind_eq_some_iff, dropWord?_eq_some_iff,
    target?_eq_some_iff, ReadsLast, Reading.mk.injEq]
  constructor
  · rintro ⟨_, ⟨rest, ⟨word, hhook, hword⟩, hline, rfl⟩, rfl, rfl⟩
    refine ⟨rfl, rest.reverse, word.reverse, ?_, ?_, isLine_reverse_iff.2 hline, ?_⟩
    · rw [← List.reverse_append, ← hhook, List.reverse_reverse]
    · rw [spells_iff, List.map_reverse, hword, List.reverse_reverse]
    · rw [← reverse_dropFirstSeparator, List.reverse_reverse]
  · rintro ⟨rfl, rest, word, rfl, hword, hline, rfl⟩
    refine ⟨_, ⟨rest.reverse, ⟨word.reverse, List.reverse_append .., ?_⟩,
      isLine_reverse_iff.2 hline, rfl⟩, rfl, reverse_dropFirstSeparator rest⟩
    rw [List.map_reverse, spells_iff.1 hword]

end Hook

end StepWeave
