import ActionScript.Builtin.Run

/-! # Embedders

An embedder is a family of services that may use the machine they serve. Its machine of depth
`n + 1` runs every service and every built-in routine on the one of depth `n`; at depth zero
nothing more is called. -/

namespace ActionScript

/-- An embedder: what it does when the machine asks it for something, where it may run the machine
in turn. -/
abbrev Host (σ : Type) := Machine σ → Services σ

namespace Host

variable {σ : Type}

/-- Services that refuse every call. -/
def refuse : Services σ where
  function _ _ _ := throw .tooDeep
  initializeClass _ _ := throw .tooDeep
  notify _ _ := return
  executeActions _ _ _ := throw .tooDeep
  executeFunction _ _ _ _ _ _ := throw .tooDeep
  resolveTarget _ _ := return none
  checkTimeout _ := throw .tooDeep
  now := return .nan

/-- The machine of an embedder. Calls nest as deep as the given number. -/
def machine [Journal σ] (host : Host σ) : Nat → Machine σ
  | 0 => { depth := 0, services := refuse, builtin := fun _ _ _ => throw .tooDeep }
  | n + 1 =>
    { depth := n + 1
      services :=
        { function := fun f this args => (host (host.machine n)).function f this args
          initializeClass := fun cls state => (host (host.machine n)).initializeClass cls state
          notify := fun observer key => (host (host.machine n)).notify observer key
          executeActions := fun executor actions scope =>
            (host (host.machine n)).executeActions executor actions scope
          executeFunction := fun executor f actions scope this args =>
            (host (host.machine n)).executeFunction executor f actions scope this args
          resolveTarget := fun executor target =>
            (host (host.machine n)).resolveTarget executor target
          checkTimeout := fun executor => (host (host.machine n)).checkTimeout executor
          now := fun s => (host (host.machine n)).now s }
      builtin := fun routine this args => routine.run (host.machine n) this args }

/-- An embedder without functions, observers and interpreter. -/
def bare (σ : Type) : Host σ := fun _ => refuse

end Host

/-- An embedder keeps no journal unless it has an instance of its own. -/
instance (priority := low) Journal.silent {σ : Type} : Journal σ := ⟨fun _ embedder => embedder⟩

end ActionScript
