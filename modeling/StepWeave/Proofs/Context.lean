import Mathlib.Data.List.Induction
import StepWeave.Context

/-!
# What a context remembers

The history of the operations on a context decides all that it answers: a key holds what the
last `put` of it stored, or what has since been put in its stead with the same type, unless
it has been removed since (`Context.remembers_after`).
-/

namespace StepWeave.Context

variable [Types]

/-! ## Operations -/

/-- A call on a context.  A value that is got for mutation is replaced by one of its type. -/
inductive Operation where
  | put (key : String) (value : Value)
  | get (type : TypeTag) (key : String)
  | getOptional (type : TypeTag) (key : String)
  | replace (key : String) (value : Value)
  | remove (key : String)
  | setFinished (finished : Bool)

namespace Operation

/-- The context that the operation leaves behind. -/
def act : Operation → Context → Context
  | put key v, c => c.put key v.type v.content
  | get _ _, c | getOptional _ _, c => c
  | replace key v, c => (c.modify v.type key fun _ => v.content).2
  | remove key, c => (c.remove key).2
  | setFinished finished, c => c.setFinished finished

def key? : Operation → Option String
  | put key _ | get _ key | getOptional _ key | replace key _ | remove key => some key
  | setFinished _ => none

/-- The operation answers a failure on `c`. -/
def Fails (c : Context) : Operation → Prop
  | get type key => ∃ failure, c.get type key = .error failure
  | getOptional type key => ∃ failure, c.getOptional type key = .error failure
  | replace key v => ∃ failure, (c.modify v.type key fun _ => v.content).1 = .error failure
  | put _ _ | remove _ | setFinished _ => False

/-- What the operation puts in the stead of an element of `type` under `key`. -/
def replacement? (key : String) (type : TypeTag) : Operation → Option type.Carrier
  | replace k v => if k = key then v.as? type else none
  | _ => none

def finished? : Operation → Option Bool
  | setFinished finished => some finished
  | _ => none

end Operation

/-- The context that the operations make of an empty one. -/
def after (history : List Operation) : Context := history.foldl (fun c op => op.act c) empty

theorem after_concat (history : List Operation) (op : Operation) :
    after (history ++ [op]) = op.act (after history) := by
  simp [after]

/-! ## Answers in terms of what is stored -/

section

variable (c : Context) (type : TypeTag) (key : String)

@[simp] theorem find?_put (x : type.Carrier) (key' : String) :
    (c.put key type x).values.find? key' =
      if key = key' then some ⟨type, x⟩ else c.values.find? key' :=
  c.values.find?_insert key key' ⟨type, x⟩

@[simp] theorem find?_remove (key' : String) :
    (c.remove key).2.values.find? key' = if key = key' then none else c.values.find? key' :=
  c.values.find?_erase key key'

theorem get_eq :
    c.get type key =
      match c.values.find? key with
      | none => .error (.missingValue key)
      | some v =>
        match v.as? type with
        | some x => .ok x
        | none => .error (.wrongValueType key type.name v.type.name) := by
  unfold get getOptional
  cases c.values.find? key with
  | none => rfl
  | some v =>
      dsimp only
      cases v.as? type <;> rfl

/-- Leaving it open whether there is a value makes no other difference to reading it. -/
theorem getOptional_eq :
    c.getOptional type key =
      match c.get type key with
      | .ok x => .ok (some x)
      | .error (.missingValue _) => .ok none
      | .error failure => .error failure := by
  rw [get_eq, getOptional]
  cases c.values.find? key with
  | none => rfl
  | some v =>
      dsimp only
      cases v.as? type <;> rfl

theorem modify_eq (f : type.Carrier → type.Carrier) :
    c.modify type key f =
      (c.get type key,
        match c.get type key with
        | .ok x => c.put key type (f x)
        | .error _ => c) := by
  rw [get_eq, modify]
  cases c.values.find? key with
  | none => rfl
  | some v =>
      dsimp only
      cases v.as? type <;> rfl

variable {c type key}

theorem get_eq_ok_iff {x : type.Carrier} :
    c.get type key = .ok x ↔ c.values.find? key = some ⟨type, x⟩ := by
  rw [get_eq]
  constructor
  · intro h
    split at h
    · cases h
    next v hv =>
      split at h
      next y hy =>
        cases h
        obtain ⟨stored, y⟩ := v
        by_cases htype : stored = type
        · subst htype
          rw [Value.as?_mk] at hy
          cases hy
          exact hv
        · rw [(Value.as?_eq_none_iff type ⟨stored, y⟩).2 htype] at hy
          cases hy
      · cases h
  · intro h
    simp [h]

theorem contains_eq_false_iff : c.contains key = false ↔ c.values.find? key = none := by
  rw [contains, Keyed.contains, Option.isSome_eq_false_iff, Option.isNone_iff_eq_none]

theorem typeOf?_eq_some_iff :
    c.typeOf? key = some type ↔ ∃ x, c.values.find? key = some ⟨type, x⟩ := by
  rw [typeOf?, Option.map_eq_some_iff]
  constructor
  · rintro ⟨⟨stored, x⟩, hv, rfl⟩
    exact ⟨x, hv⟩
  · rintro ⟨x, hv⟩
    exact ⟨_, hv, rfl⟩

end

/-! ## What an operation does to an entry -/

namespace Operation

variable {c : Context} {key : String}

theorem act_of_fails {op : Operation} (h : op.Fails c) : op.act c = c := by
  cases op with
  | get type k => rfl
  | getOptional type k => rfl
  | replace k v =>
      obtain ⟨failure, hfailure⟩ := h
      rw [modify_eq] at hfailure
      dsimp only at hfailure
      rw [act, modify_eq, hfailure]
  | put k v => exact h.elim
  | remove k => exact h.elim
  | setFinished finished => exact h.elim

theorem find?_act_of_ne {op : Operation} (h : op.key? ≠ some key) :
    (op.act c).values.find? key = c.values.find? key := by
  have hne {k : String} (hk : op.key? = some k) : k ≠ key := fun heq => h (heq ▸ hk)
  cases op with
  | put k v => simp [act, hne rfl]
  | get type k => rfl
  | getOptional type k => rfl
  | replace k v =>
      rw [act, modify_eq]
      dsimp only
      split
      · simp [hne rfl]
      · rfl
  | remove k => simp [act, hne rfl]
  | setFinished finished => rfl

/-- Unless it is put or removed, a stored element can only be replaced by one of its type. -/
theorem find?_act_of_stored {op : Operation} {v : Value} (hput : ∀ w, op ≠ .put key w)
    (hremove : op ≠ .remove key) (h : c.values.find? key = some v) :
    (op.act c).values.find? key =
      some ⟨v.type, (op.replacement? key v.type).getD v.content⟩ := by
  by_cases hkey : op.key? = some key
  · cases op with
    | put k w =>
        cases hkey
        exact absurd rfl (hput w)
    | get type k => exact h
    | getOptional type k => exact h
    | remove k =>
        cases hkey
        exact absurd rfl hremove
    | setFinished finished => cases hkey
    | replace k w =>
        obtain ⟨type, x⟩ := v
        obtain ⟨type', y⟩ := w
        cases hkey
        by_cases htype : type' = type
        · subst htype
          rw [act, modify_eq, get_eq_ok_iff.2 h]
          simp [replacement?]
        · have hnone : (Value.mk type' y).as? type = none :=
            (Value.as?_eq_none_iff type ⟨type', y⟩).2 htype
          have hfails : (replace key ⟨type', y⟩).Fails c := by
            refine ⟨.wrongValueType key type'.name type.name, ?_⟩
            rw [modify_eq, get_eq, h]
            simp [(Value.as?_eq_none_iff type' ⟨type, x⟩).2 (Ne.symm htype)]
          rw [act_of_fails hfails, h]
          simp [replacement?, hnone]
  · rw [find?_act_of_ne hkey, h]
    have hnone : op.replacement? key v.type = none := by
      cases op with
      | replace k w => exact if_neg fun heq => hkey (congrArg some heq)
      | _ => rfl
    rw [hnone]
    rfl

theorem find?_act_of_none {op : Operation} (hput : ∀ w, op ≠ .put key w)
    (h : c.values.find? key = none) : (op.act c).values.find? key = none := by
  by_cases hkey : op.key? = some key
  · cases op with
    | put k w =>
        cases hkey
        exact absurd rfl (hput w)
    | get type k => exact h
    | getOptional type k => exact h
    | remove k =>
        cases hkey
        simp [act]
    | setFinished finished => cases hkey
    | replace k w =>
        cases hkey
        have hfails : (replace key w).Fails c := by
          refine ⟨.missingValue key, ?_⟩
          rw [modify_eq, get_eq, h]
        rw [act_of_fails hfails, h]
  · rw [find?_act_of_ne hkey, h]

theorem finished_act (op : Operation) (c : Context) :
    (op.act c).finished = op.finished?.getD c.finished := by
  cases op with
  | replace k v =>
      rw [act, modify_eq]
      dsimp only
      split <;> rfl
  | _ => rfl

end Operation

/-! ## What a history leaves -/

/-- The last `put` of the key in the history is of `v`, operations `since` come after it, and
the key is not removed by one of them. -/
def Stored (history : List Operation) (key : String) (v : Value) (since : List Operation) : Prop :=
  (∃ before, history = before ++ .put key v :: since) ∧ (∀ w, .put key w ∉ since) ∧
    .remove key ∉ since

/-- The element that is left of one stored under `key`: the last one of its type that was put
in its stead, if any was. -/
def latest (key : String) (v : Value) (since : List Operation) : v.type.Carrier :=
  (since.reverse.findSome? (Operation.replacement? key v.type)).getD v.content

section

variable {history since : List Operation} {key : String} {v : Value} {op : Operation}

theorem Stored.concat (h : Stored history key v since) (hput : ∀ w, op ≠ .put key w)
    (hremove : op ≠ .remove key) : Stored (history ++ [op]) key v (since ++ [op]) := by
  obtain ⟨⟨before, rfl⟩, hputs, hremoves⟩ := h
  refine ⟨⟨before, by simp⟩, fun w hw => ?_, fun hmem => ?_⟩
  · rw [List.mem_append, List.mem_singleton] at hw
    exact hw.elim (hputs w) fun heq => hput w heq.symm
  · rw [List.mem_append, List.mem_singleton] at hmem
    exact hmem.elim hremoves fun heq => hremove heq.symm

theorem find?_after_of_stored (h : Stored history key v since) :
    (after history).values.find? key = some ⟨v.type, latest key v since⟩ := by
  obtain ⟨⟨before, rfl⟩, hputs, hremoves⟩ := h
  induction since using List.reverseRecOn with
  | nil =>
      rw [after_concat]
      simp [Operation.act, latest]
  | append_singleton since op ih =>
      have hlast := ih (fun w hw => hputs w (List.mem_append_left _ hw))
        fun hmem => hremoves (List.mem_append_left _ hmem)
      have hop : op ∈ since ++ [op] := by simp
      rw [← List.cons_append, ← List.append_assoc, after_concat,
        Operation.find?_act_of_stored (fun w heq => hputs w (heq ▸ hop))
          (fun heq => hremoves (heq ▸ hop)) hlast,
        latest, latest, List.reverse_append, List.reverse_singleton, List.singleton_append,
        List.findSome?_cons]
      cases op.replacement? key v.type <;> rfl

/-- Where no `put` stands, nothing is stored. -/
theorem find?_after_eq_none (h : ∀ v since, ¬Stored history key v since) :
    (after history).values.find? key = none := by
  induction history using List.reverseRecOn with
  | nil => rfl
  | append_singleton history op ih =>
      have hput : ∀ w, op ≠ .put key w := by
        rintro w rfl
        exact h w [] ⟨⟨history, rfl⟩, by simp, by simp⟩
      rw [after_concat]
      by_cases hremove : op = .remove key
      · subst hremove
        simp [Operation.act]
      · exact Operation.find?_act_of_none hput
          (ih fun v since hstored => h v _ (hstored.concat hput hremove))

theorem exists_stored (h : (after history).values.find? key ≠ none) :
    ∃ v since, Stored history key v since := by
  by_contra hnone
  exact h (find?_after_eq_none fun v since hstored => hnone ⟨v, since, hstored⟩)

theorem finished_after (history : List Operation) :
    (after history).finished = (history.reverse.findSome? Operation.finished?).getD false := by
  induction history using List.reverseRecOn with
  | nil => rfl
  | append_singleton history op ih =>
      rw [after_concat, Operation.finished_act, ih, List.reverse_append, List.reverse_singleton,
        List.singleton_append, List.findSome?_cons]
      cases op.finished? <;> rfl

end

/-- The context answers, and changes, as a finite map of typed values does of which the
history tells what was put into it and what was removed. -/
structure Remembers (history : List Operation) (c : Context) : Prop where
  contains_iff : ∀ key, c.contains key = true ↔ ∃ v since, Stored history key v since
  typeOf?_iff : ∀ key type, c.typeOf? key = some type ↔
    ∃ x since, Stored history key ⟨type, x⟩ since
  get_of_absent : ∀ type key, c.contains key = false →
    c.get type key = .error (.missingValue key)
  get_of_ne : ∀ type key v since, Stored history key v since → v.type ≠ type →
    c.get type key = .error (.wrongValueType key type.name v.type.name)
  get_of_stored : ∀ key v since, Stored history key v since →
    c.get v.type key = .ok (latest key v since)
  getOptional_eq : ∀ type key, c.getOptional type key =
    match c.get type key with
    | .ok x => .ok (some x)
    | .error (.missingValue _) => .ok none
    | .error failure => .error failure
  /-- Mutation fails as reading does, and else answers what it is to change. -/
  modify_eq : ∀ type key f, (c.modify type key f).1 = c.get type key
  remove_eq : ∀ key, (c.remove key).1 = c.contains key
  /-- An entry is left as it is by a failure and by whatever is done to other keys. -/
  unchanged : ∀ (op : Operation) key, op.Fails c ∨ op.key? ≠ some key →
    (op.act c).values.find? key = c.values.find? key
  keys_ascending : c.keys.Pairwise (· < ·)
  mem_keys_iff : ∀ key, key ∈ c.keys ↔ c.contains key = true
  size_eq : c.size = c.keys.length
  finished_eq : c.finished = (history.reverse.findSome? Operation.finished?).getD false
  finished_act : ∀ op : Operation, op.finished? = none → (op.act c).finished = c.finished

/-- After every history of operations a context answers as the history tells. -/
theorem remembers_after (history : List Operation) : Remembers history (after history) where
  contains_iff key := by
    rw [← Bool.not_eq_false, contains_eq_false_iff]
    constructor
    · exact exists_stored
    · rintro ⟨v, since, h⟩
      rw [find?_after_of_stored h]
      exact Option.some_ne_none _
  typeOf?_iff key type := by
    rw [typeOf?_eq_some_iff]
    constructor
    · rintro ⟨x, hx⟩
      obtain ⟨v, since, h⟩ := exists_stored (hx ▸ Option.some_ne_none _)
      rw [find?_after_of_stored h] at hx
      obtain rfl : v.type = type := congrArg Value.type (Option.some.inj hx)
      exact ⟨v.content, since, h⟩
    · rintro ⟨x, since, h⟩
      exact ⟨_, find?_after_of_stored h⟩
  get_of_absent type key h := by
    rw [get_eq, contains_eq_false_iff.1 h]
  get_of_ne type key v since h hne := by
    rw [get_eq, find?_after_of_stored h]
    simp [(Value.as?_eq_none_iff type ⟨v.type, latest key v since⟩).2 hne]
  get_of_stored key v since h := get_eq_ok_iff.2 (find?_after_of_stored h)
  getOptional_eq type key := getOptional_eq (after history) type key
  modify_eq type key f := by rw [modify_eq]
  remove_eq key := rfl
  unchanged op key := by
    rintro (hfails | hne)
    · rw [Operation.act_of_fails hfails]
    · exact Operation.find?_act_of_ne hne
  keys_ascending := Keyed.pairwise_keys (after history).values
  mem_keys_iff key := (Keyed.contains_iff (after history).values key).symm
  size_eq := (List.length_map _).symm
  finished_eq := finished_after history
  finished_act op hop := by rw [Operation.finished_act, hop]; rfl

end StepWeave.Context
