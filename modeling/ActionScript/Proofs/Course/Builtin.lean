import ActionScript.Proofs.Course.Machine
import ActionScript.Proofs.Trend.Builtin

/-! # Built-in routines on course

Every routine keeps to a course that guides the machine it runs on, and the machine of an embedder
is guided at every depth if its services keep to the course on a machine that is. -/

namespace ActionScript.Course

variable {σ : Type} [Journal σ]

theorem edits (C : Course σ) : C.Edits True where
  box v := .edit (.box v)
  createObject := .edit .createObject
  create _ _ := .edit (.create _ _)
  createConstructor _ := .edit (.createConstructor _)
  createDate _ := .edit (.createDate _)
  createArray _ := .edit (.createArray _)
  setLength _ _ := .edit (.setLength _ _)
  setPrototype _ _ := .edit (.setPrototype _ _)
  setFlags _ _ _ _ := .strip fun _ => .setFlags _ _ _ _
  registerClass _ _ := .edit (.registerClass _ _)
  nextRandom := .edit .nextRandom
  unwatch _ _ := .edit (.setWatcher _ _ _)
  watch _ _ _ _ := .edit (.setWatcher _ _ _)
  addAccessor _ _ _ _ _ := .strip fun _ => .addAccessor _ _ _ _

variable {C : Course σ}

theorem Guides.equips {m : Machine σ} (h : C.Guides m) : C.Equips True m where
  toGuides := h
  edits := C.edits
  write o v name _ := h.write o name v
  writeElement a _ v := h.writeKey a _ _ v
  deleteElement a _ := h.deleteKey a _
  instantiate c _ hbody := h.instantiate c hbody

theorem guides_machine {host : Host σ} (hhost : ∀ {m}, C.Guides m → C.Serves (host m))
    (depth : Nat) : C.Guides (host.machine depth) :=
  Trend.guides_machine Guides.equips hhost depth

end ActionScript.Course
