import BinAtlas.Proofs.Arguments
import BinAtlas.Toolkit.Standard

/-! What is relied on of the tools that the program is built upon, and that the tools it comes with have it. -/

namespace BinAtlas

namespace Toolkit

/-- Writing JSON never fails. -/
def Writes (tools : Toolkit) : Prop := ∀ v, ∃ text, tools.pretty v = .ok text

/-- The switch for JSON, put before arguments without it, sets itself and changes nothing else that they ask
for; and it makes no arguments right. -/
structure TakesSwitch (tools : Toolkit) : Prop where
  accepted : ∀ args i, tools.arguments args = .ok i → i.json = false →
    tools.arguments ("--json" :: args) = .ok { i with json := true }
  refused : ∀ args message, tools.arguments args = .error (.refused message) →
    ∃ other, tools.arguments ("--json" :: args) = .error (.refused other)

theorem writes_standard : standard.Writes := fun v => ⟨v.pretty, rfl⟩

theorem arguments_standard_of_ok {args : List String} {i : Invocation} (h : Command.ofArguments args = .ok i) :
    standard.arguments args = .ok i := congrArg (Except.mapError _) h

theorem arguments_standard_of_error {args : List String} {r : Command.Refusal}
    (h : Command.ofArguments args = .error r) : standard.arguments args = .error r.parting :=
  congrArg (Except.mapError _) h

theorem takesSwitch_standard : standard.TakesSwitch where
  accepted args i h hjson := by
    cases hread : Command.ofArguments args with
    | error r =>
      rw [arguments_standard_of_error hread] at h
      cases h
    | ok j =>
      rw [arguments_standard_of_ok hread] at h
      cases h
      exact arguments_standard_of_ok (Command.ofArguments_json_of_ok hread hjson)
  refused args message h := by
    cases hread : Command.ofArguments args with
    | ok i =>
      rw [arguments_standard_of_ok hread] at h
      cases h
    | error r =>
      rw [arguments_standard_of_error hread] at h
      cases r with
      | usage => exact ⟨_, arguments_standard_of_error (Command.ofArguments_json_of_usage hread)⟩
      | help | version => cases h

end Toolkit
end BinAtlas
