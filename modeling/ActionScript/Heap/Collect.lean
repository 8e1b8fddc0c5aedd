import ActionScript.Heap.Basic

/-! # Garbage collection

Marking follows the references of live objects from the roots; sweeping empties the slots that
were not marked. -/

namespace ActionScript.Heap

/-- Marks what the handles in `work` reach through live objects that are not marked yet. -/
def mark (h : Heap) (marks : Array Bool) (work : List ObjectId) : Array Bool :=
  match work with
  | [] => marks
  | o :: work =>
    match h.get? o with
    | none => h.mark marks work
    | some object =>
      if fresh : ∃ bound : o.index < marks.size, marks[o.index] = false then
        h.mark (marks.set o.index true fresh.1) (object.references ++ work)
      else h.mark marks work
termination_by (marks.count false, work.length)
decreasing_by
  · exact Prod.Lex.right _ (Nat.lt_succ_self _)
  · apply Prod.Lex.left
    have ⟨bound, unmarked⟩ := fresh
    have positive : 0 < marks.count false :=
      Array.count_pos_iff.2 (unmarked ▸ Array.getElem_mem bound)
    have isFalse : (marks[o.index] == false) = true := by rw [unmarked]; rfl
    rw [Array.count_set bound, if_pos isFalse, if_neg (by decide)]
    omega
  · exact Prod.Lex.right _ (Nat.lt_succ_self _)

/-- The marks after a collection from the roots. -/
def marked (h : Heap) (roots : List ObjectId) : Array Bool :=
  h.mark (Array.replicate h.slots.size false) roots

/-- How many objects a handle leads to, its own included. -/
def extent (h : Heap) (o : ObjectId) : Nat := (h.marked [o]).count true

/-- The live slots without a mark, in ascending order. -/
def unmarked (h : Heap) (marks : Array Bool) : List Nat :=
  (List.range h.slots.size).filter fun i => h.isLive ⟨i⟩ && marks[i]? != some true

/-- Empties the given slots; the last of them is used again first. -/
def sweep (h : Heap) (freed : List Nat) : Heap where
  slots := freed.foldl (fun slots i => slots.setIfInBounds i none) h.slots
  free := freed.reverse ++ h.free

/-- Frees every object that the roots do not reach, and counts them. -/
def collect (h : Heap) (roots : List ObjectId) : Nat × Heap :=
  let freed := h.unmarked (h.marked roots)
  (freed.length, h.sweep freed)

end ActionScript.Heap
