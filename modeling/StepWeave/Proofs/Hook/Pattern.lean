import StepWeave.Proofs.Lists

/-!
# Patterns

A pattern matches the front of a text in several ways, and they have an order: of two
patterns the first is preferred, something optional is rather there than not, and a run of
characters is preferred long or short.  A pattern matches a text in the first of its ways.
-/

namespace StepWeave

/-- One way to match the front of a text: what is taken, what the numbered groups hold, and
what is left. -/
structure Way where
  taken : List Char
  groups : List (Nat × List Char)
  rest : List Char

namespace Way

def nothing (text : List Char) : Way := ⟨[], [], text⟩

def andThen (first second : Way) : Way :=
  ⟨first.taken ++ second.taken, first.groups ++ second.groups, second.rest⟩

theorem nothing_andThen (text : List Char) : (nothing text).andThen = id := rfl

def asGroup (number : Nat) (way : Way) : Way :=
  { way with groups := (number, way.taken) :: way.groups }

def group? (way : Way) (number : Nat) : Option (List Char) := way.groups.lookup number

end Way

inductive Pattern where
  | nothing
  | one (accepts : Char → Bool)
  | seq (first second : Pattern)
  | either (first second : Pattern)
  | optional (inner : Pattern)
  /-- One character or more. -/
  | run (greedy : Bool) (accepts : Char → Bool)
  | group (number : Nat) (inner : Pattern)
  /-- The end of the text. -/
  | stop

namespace Pattern

def oneWays (accepts : Char → Bool) : List Char → List Way
  | [] => []
  | c :: rest => if accepts c then [⟨[c], [], rest⟩] else []

/-- A greedy pattern goes on before it stops here. -/
def arrange (greedy : Bool) (here : Way) (further : List Way) : List Way :=
  if greedy then further ++ [here] else here :: further

def runWays (greedy : Bool) (accepts : Char → Bool) : List Char → List Way
  | [] => []
  | c :: rest =>
      if accepts c then
        arrange greedy ⟨[c], [], rest⟩
          ((runWays greedy accepts rest).map (Way.andThen ⟨[c], [], rest⟩))
      else []

/-- The ways in which the pattern matches the front of a text, the preferred ones first. -/
@[simp] def ways : Pattern → List Char → List Way
  | nothing, text => [.nothing text]
  | one accepts, text => oneWays accepts text
  | seq first second, text =>
      (first.ways text).flatMap fun way => (second.ways way.rest).map way.andThen
  | either first second, text => first.ways text ++ second.ways text
  | optional inner, text => inner.ways text ++ [.nothing text]
  | run greedy accepts, text => runWays greedy accepts text
  | group number inner, text => (inner.ways text).map (Way.asGroup number)
  | stop, text => if text.isEmpty then [.nothing text] else []

/-- How the pattern matches the front of a text. -/
def first? (pattern : Pattern) (text : List Char) : Option Way := (pattern.ways text).head?

/-- The pattern takes the texts with this property, in some order, and has no groups. -/
def Takes (pattern : Pattern) (P : List Char → Prop) : Prop :=
  ∀ text way, way ∈ pattern.ways text ↔
    text = way.taken ++ way.rest ∧ way.groups = [] ∧ P way.taken

/-! ## What a pattern takes -/

section

variable {first second inner : Pattern} {accepts : Char → Bool} {P Q : List Char → Prop}
  {text : List Char} {way : Way}

theorem Takes.congr (h : inner.Takes P) (hPQ : ∀ taken, P taken ↔ Q taken) : inner.Takes Q := by
  intro text way
  rw [h text way, hPQ]

theorem takes_nothing : nothing.Takes fun taken => taken = [] := by
  rintro text ⟨taken, groups, rest⟩
  rw [ways, List.mem_singleton, Way.nothing, Way.mk.injEq]
  constructor
  · rintro ⟨rfl, rfl, rfl⟩
    exact ⟨rfl, rfl, rfl⟩
  · rintro ⟨rfl, rfl, rfl⟩
    exact ⟨rfl, rfl, rfl⟩

theorem takes_one : (one accepts).Takes fun taken => ∃ c, taken = [c] ∧ accepts c = true := by
  rintro text ⟨taken, groups, rest⟩
  constructor
  · intro h
    cases text with
    | nil => cases h
    | cons c text =>
        rw [ways, oneWays] at h
        split at h
        next hc =>
          obtain ⟨rfl, rfl, rfl⟩ := Way.mk.inj (List.mem_singleton.1 h)
          exact ⟨rfl, rfl, c, rfl, hc⟩
        next hc => cases h
  · rintro ⟨rfl, rfl, c, rfl, hc⟩
    rw [List.singleton_append, ways, oneWays, if_pos hc]
    exact List.mem_singleton_self _

theorem Takes.seq (hfirst : first.Takes P) (hsecond : second.Takes Q) :
    (seq first second).Takes fun taken => ∃ s t, taken = s ++ t ∧ P s ∧ Q t := by
  intro text way
  rw [ways, List.mem_flatMap]
  constructor
  · rintro ⟨v, hv, h⟩
    obtain ⟨u, hu, rfl⟩ := List.mem_map.1 h
    obtain ⟨rfl, hvgroups, hP⟩ := (hfirst text v).1 hv
    obtain ⟨hrest, hugroups, hQ⟩ := (hsecond v.rest u).1 hu
    refine ⟨?_, ?_, v.taken, u.taken, rfl, hP, hQ⟩
    · rw [hrest, ← List.append_assoc]
      rfl
    · exact List.append_eq_nil_iff.2 ⟨hvgroups, hugroups⟩
  · obtain ⟨taken, groups, rest⟩ := way
    rintro ⟨rfl, rfl, s, t, rfl, hP, hQ⟩
    refine ⟨⟨s, [], t ++ rest⟩, (hfirst _ _).2 ⟨List.append_assoc s t rest, rfl, hP⟩, ?_⟩
    exact List.mem_map.2 ⟨⟨t, [], rest⟩, (hsecond _ _).2 ⟨rfl, rfl, hQ⟩, rfl⟩

theorem Takes.either (hfirst : first.Takes P) (hsecond : second.Takes Q) :
    (either first second).Takes fun taken => P taken ∨ Q taken := by
  intro text way
  rw [ways, List.mem_append, hfirst text way, hsecond text way, ← and_or_left, ← and_or_left]

theorem mem_arrange {greedy : Bool} {here : Way} {further : List Way} :
    way ∈ arrange greedy here further ↔ way = here ∨ way ∈ further := by
  rw [arrange]
  split
  · rw [List.mem_append, List.mem_singleton, or_comm]
  · rw [List.mem_cons]

/-- Greedy or not, a run takes any number of the characters that it may take. -/
theorem takes_run {greedy : Bool} :
    (run greedy accepts).Takes fun taken => taken ≠ [] ∧ ∀ c ∈ taken, accepts c = true := by
  intro text way
  rw [ways]
  induction text generalizing way with
  | nil =>
      refine iff_of_false (by simp [runWays]) ?_
      rintro ⟨htext, -, hne, -⟩
      exact hne (List.append_eq_nil_iff.1 htext.symm).1
  | cons c text ih =>
      rw [runWays]
      split
      next hc =>
        rw [mem_arrange, List.mem_map]
        constructor
        · rintro (rfl | ⟨v, hv, rfl⟩)
          · simpa using hc
          · obtain ⟨htext, hgroups, -, hall⟩ := (ih v).1 hv
            exact ⟨congrArg (c :: ·) htext, hgroups, List.cons_ne_nil c v.taken,
              List.forall_mem_cons.2 ⟨hc, hall⟩⟩
        · obtain ⟨taken, groups, rest⟩ := way
          rintro ⟨htext, rfl, hne, hall⟩
          obtain ⟨d, taken, rfl⟩ := List.exists_cons_of_ne_nil hne
          obtain ⟨rfl, rfl⟩ := List.cons.inj htext
          by_cases htaken : taken = []
          · subst htaken
            exact .inl rfl
          · have hfurther := (List.forall_mem_cons.1 hall).2
            exact .inr ⟨⟨taken, [], rest⟩, (ih _).2 ⟨rfl, rfl, htaken, hfurther⟩, rfl⟩
      next hc =>
        refine iff_of_false (by simp) ?_
        rintro ⟨htext, -, hne, hall⟩
        obtain ⟨d, taken, htaken⟩ := List.exists_cons_of_ne_nil hne
        rw [htaken] at htext hall
        obtain ⟨rfl, -⟩ := List.cons.inj htext
        exact hc (List.forall_mem_cons.1 hall).1

theorem mem_ways_group (h : inner.Takes P) {number : Nat} :
    way ∈ (group number inner).ways text ↔
      ∃ taken rest, text = taken ++ rest ∧ P taken ∧ way = ⟨taken, [(number, taken)], rest⟩ := by
  rw [ways, List.mem_map]
  constructor
  · rintro ⟨⟨taken, groups, rest⟩, hv, rfl⟩
    obtain ⟨rfl, rfl, hP⟩ := (h text _).1 hv
    exact ⟨taken, rest, rfl, hP, rfl⟩
  · rintro ⟨taken, rest, rfl, hP, rfl⟩
    exact ⟨⟨taken, [], rest⟩, (h _ _).2 ⟨rfl, rfl, hP⟩, rfl⟩

/-- A run that is not greedy takes fewer characters before it takes more. -/
theorem pairwise_ways_run :
    ((run false accepts).ways text).Pairwise fun v u => v.taken.length < u.taken.length := by
  rw [ways]
  induction text with
  | nil => exact .nil
  | cons c text ih =>
      rw [runWays]
      split
      next hc =>
        rw [arrange, if_neg Bool.false_ne_true, List.pairwise_cons, List.pairwise_map]
        constructor
        · intro u hu
          obtain ⟨v, hv, rfl⟩ := List.mem_map.1 hu
          have hne : v.taken ≠ [] := ((takes_run text v).1 hv).2.2.1
          simpa [Way.andThen, List.length_pos_iff] using hne
        · exact ih.imp fun h => by simpa [Way.andThen] using h
      next hc => exact .nil

theorem pairwise_ways_group_run {number : Nat} :
    ((group number (run false accepts)).ways text).Pairwise
      fun v u => v.taken.length < u.taken.length := by
  rw [ways, List.pairwise_map]
  exact pairwise_ways_run

end

/-! ## The first way -/

section

variable {first second inner : Pattern} {accepts : Char → Bool} {P : List Char → Prop}
  {text : List Char} {way : Way}

theorem first?_seq :
    (seq first second).first? text =
      (first.ways text).findSome? fun way => (second.first? way.rest).map way.andThen := by
  simp only [first?, ways, List.head?_flatMap, List.head?_map]

theorem first?_one_seq :
    (seq (one accepts) second).first? text = some way ↔
      ∃ c rest v, text = c :: rest ∧ accepts c = true ∧ second.first? rest = some v ∧
        Way.andThen ⟨[c], [], rest⟩ v = way := by
  rw [first?_seq, ways]
  cases text with
  | nil => simp [oneWays]
  | cons c rest =>
      rw [oneWays]
      split
      next hc => simp [hc]
      next hc => simp [hc]

/-- What is optional is left out if nothing comes of it. -/
theorem first?_optional_seq :
    (seq (optional inner) second).first? text =
      ((seq inner second).first? text).or (second.first? text) := by
  simp only [first?_seq, ways, List.findSome?_append, List.findSome?_singleton,
    Way.nothing_andThen, Option.map_id_fun, id_eq]
  rfl

theorem first?_stop {rest : List Char} :
    stop.first? rest = some way ↔ rest = [] ∧ Way.nothing [] = way := by
  simp only [first?, ways, List.isEmpty_iff]
  split
  next hrest => simp [hrest]
  next hrest => simp [hrest]

/-- A last group takes the whole of the text. -/
theorem first?_group_stop (h : inner.Takes P) {number : Nat} :
    (seq (group number inner) stop).first? text = some way ↔
      P text ∧ way = ⟨text, [(number, text)], []⟩ := by
  rw [first?_seq]
  refine findSome?_eq_some_iff_of_unique
    (P := fun u : Way => P text ∧ u = ⟨text, [(number, text)], []⟩) ?_ ?_ ?_
  · intro v hv u hu
    obtain ⟨taken, rest, rfl, hP, rfl⟩ := (mem_ways_group h).1 hv
    obtain ⟨stopped, hstop, rfl⟩ := Option.map_eq_some_iff.1 hu
    obtain ⟨rfl, rfl⟩ := first?_stop.1 hstop
    rw [List.append_nil]
    exact ⟨hP, by simp [Way.andThen, Way.nothing]⟩
  · rintro _ ⟨hP, rfl⟩
    refine ⟨_, (mem_ways_group h).2 ⟨text, [], (List.append_nil text).symm, hP, rfl⟩, ?_⟩
    rw [first?_stop.2 ⟨rfl, rfl⟩]
    simp [Way.andThen, Way.nothing]
  · intro u u' hu hu'
    rw [hu.2, hu'.2]

end

end Pattern

end StepWeave
