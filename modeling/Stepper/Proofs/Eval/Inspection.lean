/-
  Expressions at a breakpoint.

  A snapshot keeps fewer bindings than it is made from, but of each name the
  innermost one (`innermost_capture`).  So an expression that is evaluated in it
  has the result it would have in the scope that has been captured
  (`concur_evaluateForm`): where functions have captured their bindings, these
  resolve each name alike (`scoping`).
-/
import Stepper.Proofs.Eval.Capture
import Stepper.Proofs.Eval.Interchange

namespace Stepper.Eval

open Stepper.Syntax (Form)

theorem innermost_append (name : String) (locals : List Binding) (binding : Binding) :
    innermost name (locals ++ [binding]) =
      if binding.1 == name then some binding else innermost name locals := by
  rw [innermost, List.reverse_append, List.reverse_singleton, List.singleton_append,
    List.find?_cons]
  cases binding.1 == name <;> rfl

/-- Functions have the same bodies, and their bindings resolve each name
    alike. -/
def scoping : Leeway String := ⟨Eq, innermost⟩

theorem sound_scoping : scoping.Sound where
  same _ := rfl
  layer := by
    rintro form _ rfl
    exact .inl (layer_refl (F := Eq) form)
  mem found := List.mem_reverse.1 (List.mem_of_find?_eq_some found)
  lookup scopes name := rel_map_snd (scopes name)
  push := by
    rintro locals locals' _ _ scopes (⟨alike⟩ : Binding.Alike ..) name
    simp only [scoping, innermost_append]
    split
    · exact .some (.bound alike)
    · exact scopes name

/-- Evaluating at a breakpoint is evaluating in the suspended scope: there is
    the same error, or values that are alike but for the order in which functions
    have captured bindings, and those that are not in sight. -/
theorem concur_evaluateForm (locals : List Binding) (now : Moment) (form : Form) (tripped : Bool) :
    Concur (Value.Alike scoping) ((Snapshot.capture locals).evaluateForm now form tripped)
      (((eval form .root now).start locals).untouched tripped).1 := by
  have kept : ∀ name, scoping.entry name (Snapshot.capture locals).bindings =
      scoping.entry name locals := fun name => innermost_capture name locals
  have forth : Action.Tracks ⟨(Snapshot.capture locals).bindings, 0⟩ ⟨locals, 0⟩
      (eval form .root now) (eval form .root now) (Returns₂ scoping _ _) :=
    tracks_eval sound_scoping rfl (sound_scoping.scopes kept) (Nat.le_refl 0)
  have back : Action.Tracks ⟨locals, 0⟩ ⟨(Snapshot.capture locals).bindings, 0⟩
      (eval form .root now) (eval form .root now) (Returns₂ scoping _ _) :=
    tracks_eval sound_scoping rfl (sound_scoping.scopes fun name => (kept name).symm)
      (Nat.le_refl 0)
  rcases Run.Tracks.untouched forth tripped with spent | ends
  · -- the first one is nested too deeply, and so is the second one, which ends like it
    have deep : (((eval form .root now).start locals).untouched tripped).1 =
        .error (.depthExceeded maxDepth) := by
      rcases Run.Tracks.untouched back tripped with spent' | ends
      · exact spent'
      · exact ends.alike.error_of_error spent
    rw [deep, Snapshot.evaluateForm, Action.start, spent]
    exact .error _
  · exact ends.alike

end Stepper.Eval
