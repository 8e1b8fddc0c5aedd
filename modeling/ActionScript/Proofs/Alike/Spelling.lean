import ActionScript.Proofs.Alike.Change
import ActionScript.Proofs.Alike.Known

/-! # Movies that differ in spellings

Where case does not count, slots remember the spellings under which they were added, and only
enumeration shows them. Two movies are respelled if they agree in everything else, free slots
included, and in the lower case of their spellings (`Respelled.folded_eq`). They give new objects
the same handles, and a collection frees the same slots of both. -/

namespace ActionScript

/-- Handles stand for themselves, and spellings for those that differ in case only. -/
def Matching.caseless : Matching where
  handle := Eq
  spelling a b := Text.lower a = Text.lower b

/-! ## Spellings in lower case -/

def Table.mapValues {κ ν ν' : Type} (f : ν → ν') (t : Table κ ν) : Table κ ν' where
  entries := t.entries.map fun e => (e.1, f e.2)
  nodup := by
    rw [List.map_map]
    exact t.nodup

def Property.folded (p : Property) : Property := { p with spelling := p.spelling.map Text.lower }

def Object.folded (x : Object) : Object :=
  { x with properties := x.properties.mapValues Property.folded }

def Heap.folded (h : Heap) : Heap := { h with slots := h.slots.map (Option.map Object.folded) }

/-- The movie with all spellings in lower case. -/
def Movie.folded (m : Movie) : Movie := { m with heap := m.heap.folded }

theorem Object.references_folded (x : Object) : x.folded.references = x.references := by
  have hvalues : x.folded.properties.values = x.properties.values.map Property.folded := by
    simp only [folded, Table.values, Table.mapValues, List.map_map]
    rfl
  rw [references, references, hvalues, List.flatMap_map]
  rfl

namespace Heap

theorem size_folded (h : Heap) : h.folded.slots.size = h.slots.size := Array.size_map

/-- Folding a heap folds each object in its own slot. -/
theorem get?_folded (h : Heap) (o : ObjectId) : h.folded.get? o = (h.get? o).map Object.folded := by
  rw [get?, get?, folded, Array.getElem?_map]
  cases h.slots[o.index]? <;> rfl

theorem isLive_folded (h : Heap) (o : ObjectId) : h.folded.isLive o = h.isLive o := by
  rw [isLive, isLive, get?_folded, Option.isSome_map]

theorem actions_folded (h : Heap) : h.folded.actions = h.actions := by
  rw [actions, actions, folded, Array.toList_map, List.filterMap_map]
  congr 1
  funext slot
  cases slot <;> rfl

/-- Marking does not look at spellings. -/
theorem mark_folded (h : Heap) (marks : Array Bool) (work : List ObjectId) :
    h.folded.mark marks work = h.mark marks work := by
  fun_induction mark h marks work with
  | case1 => rw [mark]
  | case2 marks p work hp ih =>
    rw [mark_of_get?_eq_none (by rw [get?_folded, hp, Option.map_none]), ih]
  | case3 marks p work x hp fresh ih =>
    obtain ⟨hlt, hmark⟩ := fresh_iff.mp fresh
    have hp : h.folded.get? p = some x.folded := by rw [get?_folded, hp, Option.map_some]
    rw [mark_of_not_marked hp hlt hmark, Object.references_folded, ih]
  | case4 marks p work x hp stale ih =>
    rw [mark]
    simp only [get?_folded, hp, Option.map_some, dif_neg stale, ih]

/-- Folding changes nothing about what is reached. -/
theorem unmarked_folded (h : Heap) (roots : List ObjectId) :
    h.folded.unmarked (h.folded.marked roots) = h.unmarked (h.marked roots) := by
  simp only [unmarked, marked, mark_folded, size_folded, isLive_folded]

end Heap

/-! ## Data that differs in spellings -/

theorem Table.Alike.mapValues_eq {κ ν ν' : Type} {f : ν → ν'} {b : ν → ν → Prop}
    (hf : ∀ v w, b v w → f v = f w) {t t' : Table κ ν} (h : Table.Alike Eq b t t') :
    t.mapValues f = t'.mapValues f := by
  apply Table.Alike.eq
  exact List.rel_map (fun e e' he => ⟨he.1, hf _ _ he.2⟩) h

theorem Value.Alike.eq_of_caseless {v w : Value} (h : Value.Alike .caseless v w) : v = w := by
  cases h with
  | object ho => rw [show _ = _ from ho]
  | _ => rfl

theorem Error.Alike.eq_of_caseless {e f : Error} (h : Error.Alike .caseless e f) : e = f := by
  cases h with
  | refl _ => rfl
  | thrown hv => rw [hv.eq_of_caseless]

theorem Watcher.Alike.eq_of_caseless {w w' : Watcher} (h : Watcher.Alike .caseless w w') :
    w = w' := by
  obtain ⟨hname, hcallback, hdata⟩ := h
  cases w
  cases w'
  rw [Watcher.mk.injEq]
  exact ⟨hname, hcallback, hdata.eq_of_caseless⟩

theorem Access.Alike.eq_of_caseless {a a' : Access} (h : Access.Alike .caseless a a') :
    a = a' := by
  cases h with
  | data => rfl
  | accessor hg hs => rw [optionRel_eq hg, optionRel_eq hs]

/-- Properties alike up to spelling fold to the same. -/
theorem Property.Alike.folded_eq {p p' : Property} (h : Property.Alike .caseless p p') :
    p.folded = p'.folded := by
  have hspelling : p.spelling.map Text.lower = p'.spelling.map Text.lower := by
    rcases optionRel_cases h.spelling with ⟨a, b, ha, hb, hab⟩ | ⟨ha, hb⟩
    · rw [ha, hb, Option.map_some, Option.map_some, show Text.lower a = Text.lower b from hab]
    · rw [ha, hb]
  simp only [folded, h.access.eq_of_caseless, h.value.eq_of_caseless, h.dontEnum, h.dontDelete,
    optionRel_eq (optionRel_mono Watcher.Alike.eq_of_caseless h.watcher), hspelling]

/-- Objects alike up to spelling fold to the same. -/
theorem Object.Alike.folded_eq {x x' : Object} (h : Object.Alike .caseless x x') :
    x.folded = x'.folded := by
  have hproperties := h.properties.mapValues_eq fun _ _ hp => hp.folded_eq
  simp only [folded, hproperties, optionRel_eq h.prototype, h.kind, h.blocked, h.colorBlocked]

/-! ## Respelled movies -/

/-- The movies differ in the case of spellings only. The number of slots and the free ones fix the
handles of new objects. -/
structure Respelled (m m' : Movie) : Prop where
  alike : Movie.Alike .caseless m m'
  caseless : m.settings.caseSensitive = false
  size : m.heap.slots.size = m'.heap.slots.size
  free : m.heap.free = m'.heap.free

theorem Respelled.refl {m : Movie} (hm : m.settings.caseSensitive = false) : Respelled m m where
  alike := by
    have hknown := Movie.alike_known_all (k := fun _ => True) (fun _ => trivial) m
    have hle : Matching.known (fun _ => True) ≤ .caseless := ⟨And.left, congrArg Text.lower⟩
    exact {
      hknown with
      handles := biUnique_eq
      spellings := fun _ => rfl
      intrinsics := hknown.intrinsics.imp fun _ _ => And.left
      global := rfl
      staticStates := hknown.staticStates.mono (ClassKey.Alike.mono hle) And.left
      initializers := hknown.initializers.mono And.left id
      classes := hknown.classes.mono id And.left
      pins := hknown.pins.mono And.left id
      objects := fun {o o'} ho =>
        optionRel_mono (Object.Alike.mono hle) (hknown.objects ⟨ho, trivial⟩) }
  caseless := hm
  size := rfl
  free := rfl

namespace Respelled

variable {m m' : Movie} (h : Respelled m m')
include h

/-- Names that differ in case have the same key. -/
theorem normalize {name name' : String} (hname : Text.lower name = Text.lower name') :
    m.normalize name = m'.normalize name' := by
  rw [← h.alike.normalize, Movie.normalize, Movie.normalize, Settings.normalize,
    Settings.normalize, h.caseless, if_neg Bool.false_ne_true, if_neg Bool.false_ne_true, hname]

theorem heap_folded_eq : m.heap.folded = m'.heap.folded := by
  have hslots : m.heap.folded.slots = m'.heap.folded.slots := by
    apply Array.ext
    · rw [Heap.size_folded, Heap.size_folded, h.size]
    · intro i hi hi'
      have hobjects := h.alike.objects (o := ⟨i⟩) rfl
      rw [Heap.size_folded] at hi hi'
      simp only [Heap.get?, Array.getElem?_eq_getElem hi, Array.getElem?_eq_getElem hi',
        Option.join_some] at hobjects
      simp only [Heap.folded, Array.getElem_map]
      rcases optionRel_cases hobjects with ⟨x, x', hx, hx', halike⟩ | ⟨hx, hx'⟩
      · rw [hx, hx', Option.map_some, Option.map_some, halike.folded_eq]
      · rw [hx, hx']
  exact congrArg₂ Heap.mk hslots h.free

/-- Respelled movies fold to the same movie. -/
theorem folded_eq : m.folded = m'.folded := by
  rw [Movie.folded, Movie.folded, h.heap_folded_eq]
  exact h.alike.withHeap_eq id _

/-! ### Changes -/

/-- A change of both heaps keeps movies respelled when it keeps them alike, the slots as many and
the same ones free. -/
theorem change {n n' : Movie} (halike : Movie.Alike .caseless n n')
    (hsettings : n.settings = m.settings) (hsize : n.heap.slots.size = m.heap.slots.size)
    (hsize' : n'.heap.slots.size = m'.heap.slots.size) (hfree : n.heap.free = m.heap.free)
    (hfree' : n'.heap.free = m'.heap.free) : Respelled n n' where
  alike := halike
  caseless := hsettings ▸ h.caseless
  size := by rw [hsize, hsize', h.size]
  free := by rw [hfree, hfree', h.free]

theorem modify (o : ObjectId) {f f' : Object → Object}
    (hf : ∀ {x x'}, Object.Alike .caseless x x' → Object.Alike .caseless (f x) (f' x')) :
    Respelled { m with heap := m.heap.modify o f } { m' with heap := m'.heap.modify o f' } :=
  h.change (h.alike.modify rfl hf) rfl (Heap.size_modify o f) (Heap.size_modify o f') rfl rfl

theorem setPrototype (o : ObjectId) (p : Option ObjectId) :
    Respelled { m with heap := (m.heap.setPrototype o p).2 }
      { m' with heap := (m'.heap.setPrototype o p).2 } := by
  have hp : Option.Rel Matching.caseless.handle p p := by
    cases p with
    | none => exact .none
    | some _ => exact .some rfl
  have halike := (h.alike.setPrototype (o := o) rfl hp).2
  have hkept : ∀ heap : Heap, (heap.setPrototype o p).2.slots.size = heap.slots.size ∧
      (heap.setPrototype o p).2.free = heap.free := by
    intro heap
    rw [Heap.setPrototype]
    split
    · exact ⟨rfl, rfl⟩
    · exact ⟨Heap.size_modify o _, rfl⟩
  exact h.change halike rfl (hkept _).1 (hkept _).1 (hkept _).2 (hkept _).2

theorem replace {n n' : Movie} (halike : Movie.Alike .caseless n n')
    (hsettings : n.settings = m.settings) (hheap : n.heap = m.heap) (hheap' : n'.heap = m'.heap) :
    Respelled n n' :=
  h.change halike hsettings (by rw [hheap]) (by rw [hheap']) (by rw [hheap]) (by rw [hheap'])

/-- A new object gets the same handle in both movies. -/
theorem allocate {x x' : Object} (hx : Object.Alike .caseless x x') :
    (m.heap.allocate x).1 = (m'.heap.allocate x').1 ∧
      Respelled { m with heap := (m.heap.allocate x).2 }
        { m' with heap := (m'.heap.allocate x').2 } := by
  obtain ⟨hhandle, hsize, hfree⟩ := Heap.allocate_congr h.size h.free x x'
  refine ⟨hhandle, { h.alike with objects := fun {o o'} ho => ?_ }, h.caseless, hsize, hfree⟩
  cases ho
  simp only [Heap.get?_allocate, hhandle, hsize]
  split
  · exact .some hx
  · exact h.alike.objects rfl

/-- A collection frees the same slots of both movies. -/
theorem collectGarbage (extra : List ObjectId) :
    (Movie.collectGarbage extra m).1 = (Movie.collectGarbage extra m').1 ∧
      Respelled (Movie.collectGarbage extra m).2 (Movie.collectGarbage extra m').2 := by
  have hroots : m.folded.roots = m'.folded.roots := congrArg Movie.roots h.folded_eq
  have hfreed : m.heap.unmarked (m.heap.marked (m.roots ++ extra)) =
      m'.heap.unmarked (m'.heap.marked (m'.roots ++ extra)) := by
    rw [← m.heap.unmarked_folded, ← m'.heap.unmarked_folded, h.heap_folded_eq,
      show m.roots = m'.roots from hroots]
  refine ⟨congrArg List.length hfreed, { h.alike with objects := fun {o o'} ho => ?_ },
    h.caseless, ?_, ?_⟩
  · cases ho
    show Option.Rel _ ((m.heap.sweep _).get? o) ((m'.heap.sweep _).get? o)
    rw [Heap.get?_sweep, Heap.get?_sweep, hfreed]
    split
    · exact .none
    · exact h.alike.objects rfl
  · show (m.heap.sweep _).slots.size = (m'.heap.sweep _).slots.size
    rw [Heap.size_sweep, Heap.size_sweep, h.size]
  · show (m.heap.unmarked _).reverse ++ m.heap.free = (m'.heap.unmarked _).reverse ++ m'.heap.free
    rw [hfreed, h.free]

end Respelled

end ActionScript
