import StepWeave.Document
import StepWeave.Proofs.Blueprint.Markup
import StepWeave.Proofs.Toolbox.Markup

/-!
# Documents read back from markup

A toolbox or a list of blueprints that passes its check is what a text gives that is read as
its written form, and remains so when the text leaves out fields that have their default
(`Document.markup_faithful`).
-/

namespace StepWeave

open Markup

/-- Texts that are read as a written form of a checked value give that value. -/
structure Markup.Rereads {α : Type} (check : α → Except LoadError.Cause Unit) (demand : Demand)
    (ofText : String → Except LoadError.Cause α) (write : α → Tree) (Written : α → Tree → Prop) :
    Prop where
  written_write : ∀ a, Written a (write a)
  ofText_written : ∀ a tree text, check a = .ok () → Written a tree →
    Tree.read demand text = some tree → ofText text = .ok a
  /-- What a text gives is given by any text that is read as its written form. -/
  ofText_again : ∀ a text text', ofText text = .ok a →
    Tree.read demand text' = some (write a) → ofText text' = .ok a

theorem Markup.Rereads.of_read {α : Type} {check : α → Except LoadError.Cause Unit}
    {demand : Demand} {ofText : String → Except LoadError.Cause α} {write : α → Tree}
    {Written : α → Tree → Prop} {read : Tree → Option α}
    (hofText : ∀ text a, ofText text = .ok a ↔
      (Tree.read demand text).bind read = some a ∧ check a = .ok ())
    (hread : ∀ a tree, Written a tree → read tree = some a)
    (hwrite : ∀ a, Written a (write a)) : Rereads check demand ofText write Written where
  written_write := hwrite
  ofText_written a tree text hcheck hwritten htree := by
    rw [hofText, htree]
    exact ⟨hread a tree hwritten, hcheck⟩
  ofText_again a text text' htext htree := by
    rw [hofText, htree]
    exact ⟨hread a _ (hwrite a), ((hofText text a).1 htext).2⟩

namespace Document

/-- Every part of a document is read back from its written form, and is the same whether a
field with its default is written or left out.  Checked toolboxes and blueprints are given by
any text that is read as their written form, with or without such fields at any depth. -/
theorem markup_faithful :
    (Faithful TextStep.ofTree? TextStep.toTree fun s => s.kind.defaults) ∧
    Faithful TextInterceptor.ofTree? TextInterceptor.toTree TextInterceptor.defaults ∧
    (Faithful Toolbox.ofTree? Toolbox.toTree fun _ => Toolbox.defaults) ∧
    (Faithful VariantKey.ofTree? VariantKey.toTree fun _ => VariantKey.defaults) ∧
    (Faithful Blueprint.ofTree? Blueprint.toTree fun _ => Blueprint.defaults) ∧
    (Faithful Blueprint.listOfTree? Blueprint.listToTree fun _ => Blueprint.listDefaults) ∧
    Rereads Toolbox.check Toolbox.demand Toolbox.ofText Toolbox.toTree Toolbox.Written ∧
    Rereads Blueprint.check Blueprint.demand Blueprint.ofText Blueprint.listToTree
      Blueprint.ListWritten := by
  refine ⟨TextStep.faithful, TextInterceptor.faithful, Toolbox.faithful, VariantKey.faithful,
    Blueprint.faithful, Blueprint.listFaithful, ?_, ?_⟩
  · exact .of_read (fun _ _ => Toolbox.ofText_eq_ok_iff) (fun _ _ => Toolbox.ofTree?_of_written)
      Toolbox.written_toTree
  · exact .of_read (fun _ _ => Blueprint.ofText_eq_ok_iff)
      (fun _ _ => Blueprint.listOfTree?_of_written) Blueprint.listWritten_listToTree

/-- A nap, and a short one that delegates to it. -/
def nap : Document where
  toolbox := { steps := [⟨"wait", .delay 250⟩, ⟨"wake", .stop ""⟩] }
  blueprints := [
    { name := "nap", steps := ["wait"] },
    { name := "nap", layer := some "short", delegate := some ⟨"nap", none⟩ }]

def napStepsText : String :=
  "steps:\n- id: \"wait\"\n  kind: \"delay\"\n  millis: 250\n- id: \"wake\"\n  kind: \"stop\"\n"

def napPipelinesText : String :=
  "pipelines:\n- name: \"nap\"\n  steps:\n  - \"wait\"\n" ++
  "- name: \"nap\"\n  layer: \"short\"\n  delegate:\n    pipeline: \"nap\"\n"

/-- A mapping with plain keys. -/
def plainly (fields : Fields Tree) : Tree :=
  .mapping none (fields.map fun f => (.scalar none true f.1, f.2))

def napSteps : List Tree :=
  [plainly [("id", .ofText "wait"), ("kind", .ofText "delay"), ("millis", .ofNat 250)],
    plainly [("id", .ofText "wake"), ("kind", .ofText "stop")]]

def napDelegate : Tree := plainly [("pipeline", .ofText "nap")]

def napPipelines : List Tree :=
  [plainly [("name", .ofText "nap"), ("steps", .ofList [.ofText "wait"])],
    plainly [("name", .ofText "nap"), ("layer", .ofText "short"), ("delegate", napDelegate)]]

theorem markup_faithful_nap :
    Toolbox.check nap.toolbox = .ok () ∧ Toolbox.ofText napStepsText = .ok nap.toolbox ∧
    Blueprint.check nap.blueprints = .ok () ∧
    Blueprint.ofText napPipelinesText = .ok nap.blueprints := by
  obtain ⟨-, -, -, -, -, -, htoolbox, hblueprints⟩ := markup_faithful
  have hsteps : nap.toolbox.Written (plainly [("steps", .ofList napSteps)]) :=
    ⟨napSteps, [], by decide +kernel, .nil, by decide +kernel⟩
  have hdelegate : VariantKey.Written ⟨"nap", none⟩ napDelegate := by decide +kernel
  have hpipelines : Blueprint.ListWritten nap.blueprints
      (plainly [("pipelines", .ofList napPipelines)]) :=
    ⟨napPipelines, .cons ⟨.null, rfl, by decide +kernel⟩
      (.cons ⟨napDelegate, hdelegate, by decide +kernel⟩ .nil), by decide +kernel⟩
  exact ⟨rfl, htoolbox.ofText_written _ _ _ rfl hsteps (by decide +kernel), rfl,
    hblueprints.ofText_written _ _ _ rfl hpipelines (by decide +kernel)⟩

end Document

end StepWeave
