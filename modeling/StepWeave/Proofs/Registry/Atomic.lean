import StepWeave.Proofs.Registry.Reference
import StepWeave.Proofs.Registry.Room
import StepWeave.Proofs.Registry.Runnable
import StepWeave.ValueType

/-!
# Registrations that fail

A registration fails for a defect of the variant or for want of room
(`Registry.Refuses`), and then the registry is what it was: the entry that a new name gets
on the way is never the one for which a variant is refused.  So all the registrations that
failed can be left out of a history (`Registry.after_accepted`).
-/

namespace StepWeave

section

variable [Types]

namespace Registry

/-! ## Why a registration fails -/

/-- What speaks against registering `v`: a defect of its own or else, of a variant that can
be run, what is registered under its name. -/
inductive Refuses (r : Registry) (type : TypeTag) (v : Variant type.Carrier) :
    Failure → Prop where
  | repeatedStep {id : String} (hid : Variant.firstRepeat? v.flatten.stepIds = some id) :
    Refuses r type v (v.invalid (.duplicateStep id))
  | unplanned {failure : Failure} (hids : v.flatten.stepIds.Nodup)
      (hplan : Plan.build v.flatten = .error failure) : Refuses r type v failure
  | bound {entry : Entry} (hrunnable : v.flatten.Runnable)
      (hentry : r.entries.find? v.name = some entry) (hne : type ≠ entry.type) :
    Refuses r type v (.wrongResponseType v.name entry.type.name type.name)
  | taken {held : List (Variant type.Carrier)} (hrunnable : v.flatten.Runnable)
      (hentry : r.entries.find? v.name = some ⟨type, held⟩)
      (hlayer : ∃ w ∈ held, w.layer = v.layer) :
    Refuses r type v (.duplicatePipeline v.name v.layer)

section

variable {type : TypeTag} {v : Variant type.Carrier} {r : Registry} {failure : Failure}

theorem register_of_refuses (h : r.Refuses type v failure) :
    register type v r = (.error failure, r) := by
  cases h with
  | repeatedStep hid => simp [register, Variant.checkIds, hid]
  | unplanned hids hplan => exact register_of_build_error hids hplan
  | bound hrunnable hentry hne =>
      obtain ⟨hids, plan, hplan⟩ := hrunnable
      rw [← v.name_flatten] at hentry
      rw [register_of_build hids hplan, store_of_ne hentry hne, v.name_flatten]
  | taken hrunnable hentry hlayer =>
      obtain ⟨hids, plan, hplan⟩ := hrunnable
      rw [← v.name_flatten] at hentry
      rw [← v.layer_flatten] at hlayer
      rw [register_of_build hids hplan, store_of_taken hentry hlayer, v.name_flatten,
        v.layer_flatten]

theorem exists_refuses_of_not_runnable (h : ¬v.flatten.Runnable) :
    ∃ failure, r.Refuses type v failure := by
  by_cases hids : v.flatten.stepIds.Nodup
  · cases hplan : Plan.build v.flatten with
    | error failure => exact ⟨failure, .unplanned hids hplan⟩
    | ok plan => exact absurd ⟨hids, plan, hplan⟩ h
  · rw [← Variant.firstRepeat?_eq_none_iff_nodup, ← ne_eq, Option.ne_none_iff_exists'] at hids
    obtain ⟨id, hid⟩ := hids
    exact ⟨_, .repeatedStep hid⟩

theorem exists_refuses_of_not_hasRoom (hrunnable : v.flatten.Runnable)
    (h : ¬r.HasRoom type v.name v.layer) : ∃ failure, r.Refuses type v failure := by
  cases hentry : r.entries.find? v.name with
  | none => exact absurd (hasRoom_of_unbound hentry) h
  | some entry =>
      obtain ⟨type', held⟩ := entry
      by_cases htype : type = type'
      · subst htype
        refine ⟨_, .taken hrunnable hentry ?_⟩
        by_contra hlayer
        exact h ⟨held, .inr hentry, fun w hw hw' => hlayer ⟨w, hw, hw'⟩⟩
      · exact ⟨_, .bound hrunnable hentry htype⟩

theorem exists_refuses (h : ¬(v.flatten.Runnable ∧ r.HasRoom type v.name v.layer)) :
    ∃ failure, r.Refuses type v failure := by
  by_cases hrunnable : v.flatten.Runnable
  · exact exists_refuses_of_not_hasRoom hrunnable fun hroom => h ⟨hrunnable, hroom⟩
  · exact exists_refuses_of_not_runnable hrunnable

theorem register_eq_ok_iff :
    (register type v r).1 = .ok () ↔ v.flatten.Runnable ∧ r.HasRoom type v.name v.layer := by
  constructor
  · intro hok
    by_contra h
    obtain ⟨failure, hrefuses⟩ := exists_refuses h
    rw [register_of_refuses hrefuses] at hok
    contradiction
  · rintro ⟨⟨hids, plan, hplan⟩, hroom⟩
    obtain ⟨held, -, -, hregister⟩ := register_of_room hids hplan hroom
    rw [hregister]

theorem register_eq_error_iff :
    (register type v r).1 = .error failure ↔ r.Refuses type v failure := by
  constructor
  · intro herror
    obtain ⟨failure', hrefuses⟩ : ∃ failure, r.Refuses type v failure := by
      apply exists_refuses
      rw [← register_eq_ok_iff, herror]
      exact nofun
    rw [register_of_refuses hrefuses] at herror
    cases herror
    exact hrefuses
  · intro h
    rw [register_of_refuses h]

theorem register_unchanged (h : (register type v r).1 = .error failure) :
    (register type v r).2 = r := by
  rw [register_of_refuses (register_eq_error_iff.1 h)]

end

/-! ## Histories with failures -/

/-- The registry that registrations made one after the other on `r` lead to. -/
def after (r : Registry) (later : List Registration) : Registry :=
  later.foldl (fun r g => (register g.type g.variant r).2) r

/-- What each of the registrations made one after the other on `r` answers. -/
def answers (r : Registry) : List Registration → List (Except Failure Unit)
  | [] => []
  | g :: rest =>
    (register g.type g.variant r).1 :: answers (register g.type g.variant r).2 rest

/-- All of the registrations succeed. -/
def Admits (r : Registry) (later : List Registration) : Prop :=
  ∀ answer ∈ r.answers later, answer = .ok ()

@[simp] theorem admits_nil (r : Registry) : r.Admits [] := by
  simp [Admits, answers]

theorem admits_cons {r : Registry} {g : Registration} {later : List Registration} :
    r.Admits (g :: later) ↔ (register g.type g.variant r).1 = .ok () ∧
      (register g.type g.variant r).2.Admits later :=
  List.forall_mem_cons

theorem Admits.accepted_eq {r : Registry} {later : List Registration} (h : r.Admits later) :
    accepted r later = later := by
  induction later generalizing r with
  | nil => rfl
  | cons g rest ih =>
      obtain ⟨hok, hrest⟩ := admits_cons.1 h
      rw [accepted]
      cases hregister : register g.type g.variant r with
      | mk answer next =>
          rw [hregister] at hok hrest
          cases hok
          exact congrArg (g :: ·) (ih hrest)

@[simp] theorem after_nil (r : Registry) : r.after [] = r := rfl

theorem after_cons (r : Registry) (g : Registration) (later : List Registration) :
    r.after (g :: later) = (register g.type g.variant r).2.after later := rfl

theorem ofHistory_append (history later : List Registration) :
    ofHistory (history ++ later) = (ofHistory history).after later :=
  List.foldl_append

/-- A registration that fails might as well not have been made. -/
theorem ofHistory_of_error {history : List Registration} {g : Registration} {failure : Failure}
    (h : (register g.type g.variant (ofHistory history)).1 = .error failure)
    (later : List Registration) :
    ofHistory (history ++ g :: later) = ofHistory (history ++ later) := by
  rw [ofHistory_append, ofHistory_append, after_cons, register_unchanged h]

theorem after_accepted (r : Registry) (history : List Registration) :
    r.after (accepted r history) = r.after history := by
  induction history generalizing r with
  | nil => rfl
  | cons g rest ih =>
      rw [accepted, after_cons]
      cases hregister : register g.type g.variant r with
      | mk answer next =>
          cases answer with
          | ok =>
              calc r.after (g :: accepted next rest)
                  = next.after (accepted next rest) := by rw [after_cons, hregister]
                _ = next.after rest := ih next
          | error failure =>
              have hsame := register_unchanged (congrArg Prod.fst hregister)
              rw [hregister] at hsame
              obtain rfl : next = r := hsame
              exact ih next

/-- A registration succeeds just if its variant can be run and there is room for it.  If it
fails, for whatever reason, the registry is what it was, so that all later registrations
answer as they would without it and lead to the same registry.  A registry is made by the
registrations that succeeded alone. -/
theorem register_atomic (history : List Registration) :
    (∀ g : Registration,
      ((register g.type g.variant (ofHistory history)).1 = .ok () ↔
        g.variant.flatten.Runnable ∧ (ofHistory history).HasRoom g.type g.name g.layer) ∧
      ∀ failure, (register g.type g.variant (ofHistory history)).1 = .error failure →
        (ofHistory history).Refuses g.type g.variant failure ∧
        (register g.type g.variant (ofHistory history)).2 = ofHistory history ∧
        ∀ later, answers (ofHistory (history ++ [g])) later = answers (ofHistory history) later ∧
          ofHistory (history ++ g :: later) = ofHistory (history ++ later)) ∧
    ofHistory (accepted .empty history) = ofHistory history := by
  refine ⟨fun g => ⟨register_eq_ok_iff, fun failure h => ?_⟩, after_accepted .empty history⟩
  have hsame := register_unchanged h
  refine ⟨register_eq_error_iff.1 h, hsame, fun later => ⟨?_, ofHistory_of_error h later⟩⟩
  rw [ofHistory_concat, hsame]

end Registry

end

namespace Registry

/-- A variant for a name that is bound to another type by `greeting`. -/
def tally : Variant UInt32 where
  name := "greeting"
  layer := some "shop"

theorem register_atomic_tally :
    (register ValueType.u32 tally (ofHistory [⟨.string, greeting⟩])).1 =
      .error (.wrongResponseType "greeting" "alloc::string::String" "u32") ∧
    (register ValueType.u32 tally (ofHistory [⟨.string, greeting⟩])).2 =
      ofHistory [⟨.string, greeting⟩] ∧
    ∀ later, ofHistory (⟨.string, greeting⟩ :: ⟨.u32, tally⟩ :: later) =
      ofHistory (⟨.string, greeting⟩ :: later) := by
  obtain ⟨listing, hhistory⟩ := ofHistory_greeting
  have hentry : (ofHistory [⟨.string, greeting⟩]).entries.find? tally.name =
      some ⟨.string, [greeting]⟩ := by
    rw [hhistory]
    exact find?_add listing
  have hne : ValueType.u32 ≠ ValueType.string := by decide
  have hrunnable : tally.flatten.Runnable := .of_weave List.nodup_nil rfl rfl
  have herror : (register ValueType.u32 tally (ofHistory [⟨.string, greeting⟩])).1 =
      .error (.wrongResponseType "greeting" "alloc::string::String" "u32") :=
    register_eq_error_iff.2 (@Refuses.bound _ _ ValueType.u32 tally _ hrunnable hentry hne)
  obtain ⟨-, hsame, hlater⟩ :=
    ((register_atomic [⟨.string, greeting⟩]).1 ⟨.u32, tally⟩).2 _ herror
  exact ⟨herror, hsame, fun later => (hlater later).2⟩

end Registry

end StepWeave
