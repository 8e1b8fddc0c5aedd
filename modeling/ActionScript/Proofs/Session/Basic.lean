import ActionScript.Movie.Setup
import ActionScript.Proofs.Session.Call

/-! # Sessions

A client is an embedder that talks to the machine through calls: it looks at the movie, keeps
state of its own and makes calls, each of which may depend on all it has seen. It answers for its
services in the same way, so a callback makes calls in the middle of the call that led to it. A
session begins with a new movie and runs the main program of a client. Its ledger keeps every
movie that an edit has led to, and whether the client has been careful with handles. -/

namespace ActionScript.Session

/-- The state of a client and the records of its session. -/
structure Ledger (σ : Type) where
  own : σ
  /-- Every handle that the client has passed in or given back was live at that moment, and no
  callback has run a collection. -/
  careful : Bool
  /-- The movies that edits have led to, the latest first. -/
  past : List Movie

instance {σ : Type} : Journal (Ledger σ) :=
  ⟨fun movie ledger => { ledger with past := movie :: ledger.past }⟩

/-- What a client does until it has a result. -/
inductive Program (σ α : Type) where
  | done (a : α)
  | look (next : Movie → σ → Program σ α)
  | keep (own : σ) (next : Program σ α)
  | ask (call : Call) (next : Except Error Reply → Program σ α)

def Call.isCollection : Call → Bool
  | collect _ => true
  | _ => false

variable {σ α : Type}

/-- Notes whether handles are live and what is done with them is proper. -/
def audit (handles : List ObjectId) (proper : Bool) : Update (Ledger σ) Unit :=
  modify fun s =>
    let careful := s.embedder.careful && (proper && handles.all s.movie.heap.isLive)
    { s with embedder := { s.embedder with careful } }

/-- Runs a program on a machine, within a callback or outside. -/
def Program.run (m : Machine (Ledger σ)) (inside : Bool) : Program σ α → Update (Ledger σ) α
  | done a => return a
  | look next => do
    let s ← get
    (next s.movie s.embedder.own).run m inside
  | keep own next => do
    modify fun s => { s with embedder := { s.embedder with own } }
    next.run m inside
  | ask call next => do
    audit call.handles !(inside && call.isCollection)
    let reply ← (call.perform m).run
    (next reply).run m inside

/-- The programs of a client that answer for its services. -/
structure Client (σ : Type) where
  function : HostFunction → Value → List Value → Program σ (Except Error Value)
  initializeClass : HostClass → ObjectId → Program σ (Except Error Unit)
  notify : Observer → String → Program σ Unit
  executeActions : Executor → ActionsId → ObjectId → Program σ (Except Error Value)
  executeFunction : Executor → ObjectId → ActionsId → Scope → Value → List Value →
    Program σ (Except Error Value)
  resolveTarget : Executor → Value → Program σ (Option ObjectId)
  checkTimeout : Executor → Program σ (Except Error Unit)
  now : Program σ Number

/-- The handles in what a callback gives back. -/
def resultHandles (handles : α → List ObjectId) : Except Error α → List ObjectId
  | .ok a => handles a
  | .error e => e.handles

/-- Runs a program as a callback that may fail. -/
def Program.answer (m : Machine (Ledger σ)) (handles : α → List ObjectId)
    (program : Program σ (Except Error α)) : Run (Ledger σ) α :=
  ExceptT.mk do
    let result ← program.run m true
    audit (resultHandles handles result) true
    return result

namespace Client

variable (c : Client σ)

def host : Host (Ledger σ) := fun m =>
  { function := fun f this args => (c.function f this args).answer m Value.handles
    initializeClass := fun cls state => (c.initializeClass cls state).answer m fun _ => []
    notify := fun observer key => (c.notify observer key).run m true
    executeActions := fun executor actions scope =>
      (c.executeActions executor actions scope).answer m Value.handles
    executeFunction := fun executor f actions scope this args =>
      (c.executeFunction executor f actions scope this args).answer m Value.handles
    resolveTarget := fun executor target => do
      let o ← (c.resolveTarget executor target).run m true
      audit o.toList true
      return o
    checkTimeout := fun executor => (c.checkTimeout executor).answer m fun _ => []
    now := c.now.run m true }

/-- The state in which a session begins. -/
def start (settings : Settings) (own : σ) : State (Ledger σ) :=
  ⟨Movie.new settings, { own, careful := true, past := [Movie.new settings] }⟩

/-- The state that a program of a client leads to, with callbacks nested up to a depth. -/
def play (depth : Nat) (settings : Settings) (own : σ) (main : Program σ α) : State (Ledger σ) :=
  (main.run (c.host.machine depth) false (start settings own)).2

end Client

/-- A movie that an edit of some session has led to. -/
def Reached (m : Movie) : Prop :=
  ∃ (σ α : Type) (c : Client σ) (depth : Nat) (settings : Settings) (own : σ)
    (main : Program σ α), m ∈ (c.play depth settings own main).embedder.past

end ActionScript.Session
