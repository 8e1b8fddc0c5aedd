import ActionScript.Proofs.Alike.Object
import ActionScript.Proofs.Collection

/-! # Data under other handles

Where handles stand for their images under a map, data is alike to its renaming, and to nothing
else. -/

namespace ActionScript

/-! ## Handles in data -/

namespace Value

def handles (v : Value) : List ObjectId := v.object?.toList

/-- The value with other handles. -/
def rename (π : ObjectId → ObjectId) : Value → Value
  | .object o => .object (π o)
  | v => v

@[simp] theorem rename_id (v : Value) : v.rename id = v := by cases v <;> rfl

theorem rename_congr {π ρ : ObjectId → ObjectId} {v : Value} (h : ∀ o ∈ v.handles, π o = ρ o) :
    v.rename π = v.rename ρ := by
  cases v with
  | object o => rw [rename, rename, h o List.mem_cons_self]
  | _ => rfl

theorem mem_handles_iff {v : Value} {o : ObjectId} : o ∈ v.handles ↔ v = .object o := by
  rw [handles, Option.mem_toList, ← object?_eq_some_iff]

end Value

def Error.handles : Error → List ObjectId
  | .thrown v => v.handles
  | _ => []

def Error.rename (π : ObjectId → ObjectId) : Error → Error
  | .thrown v => .thrown (v.rename π)
  | e => e

namespace Property

/-- The slot with other handles. -/
def rename (π : ObjectId → ObjectId) (p : Property) : Property :=
  { p with
    access :=
      match p.access with
      | .data readOnly => .data readOnly
      | .accessor getter setter => .accessor (getter.map π) (setter.map π)
    value := p.value.rename π
    watcher := p.watcher.map fun w =>
      { w with callback := π w.callback, userData := w.userData.rename π } }

@[simp] theorem rename_id (p : Property) : p.rename id = p := by
  obtain ⟨access, value, _, _, watcher, _⟩ := p
  cases access <;> cases watcher <;> simp [rename]

end Property

variable {r : Matching} {π : ObjectId → ObjectId}

/-! ## Data is alike to its renaming -/

theorem value_alike_rename {v : Value} (h : ∀ o ∈ v.handles, r.handle o (π o)) :
    Value.Alike r v (v.rename π) := by
  cases v with
  | object o => exact .object (h o List.mem_cons_self)
  | undefined => exact .undefined
  | null => exact .null
  | bool => exact .bool
  | number => exact .number
  | string => exact .string

theorem option_alike_rename {x : Option ObjectId} (h : ∀ o, x = some o → r.handle o (π o)) :
    Option.Rel r.handle x (x.map π) := by
  cases x with
  | some o => exact .some (h o rfl)
  | none => exact .none

theorem values_alike_rename {vs : List Value}
    (h : ∀ o ∈ vs.flatMap Value.handles, r.handle o (π o)) :
    List.Forall₂ (Value.Alike r) vs (vs.map (Value.rename π)) := by
  rw [List.forall₂_map_right_iff, List.forall₂_same]
  intro v hv
  exact value_alike_rename fun o ho => h o (List.mem_flatMap.mpr ⟨v, hv, ho⟩)

theorem property_alike_rename {p : Property} (hspelling : ∀ name, r.spelling name name)
    (h : ∀ o ∈ p.references, r.handle o (π o)) : Property.Alike r p (p.rename π) := by
  simp only [Property.mem_references_iff] at h
  obtain ⟨access, value, _, _, watcher, spelling⟩ := p
  refine ⟨?_, value_alike_rename fun o ho => ?_, rfl, rfl, ?_, ?_⟩
  · cases access with
    | data => exact .data
    | accessor getter setter =>
      refine .accessor (option_alike_rename fun o ho => ?_) (option_alike_rename fun o ho => ?_)
      · exact h o (.inr (.inl ho))
      · exact h o (.inr (.inr (.inl ho)))
  · exact h o (.inl (Value.mem_handles_iff.mp ho))
  · cases watcher with
    | none => exact .none
    | some w =>
      refine .some ⟨rfl, h _ (.inr (.inr (.inr ⟨w, rfl, .inl rfl⟩))), ?_⟩
      refine value_alike_rename fun o ho => h o (.inr (.inr (.inr ⟨w, rfl, .inr ?_⟩)))
      exact Value.mem_handles_iff.mp ho
  · cases spelling with
    | none => exact .none
    | some name => exact .some (hspelling name)

/-! ## Data that is alike is a renaming -/

theorem eq_map_of_forall₂ {α β : Type} {f : α → β} {xs : List α} {ys : List β}
    (h : List.Forall₂ (fun a b => b = f a) xs ys) : ys = xs.map f := by
  have hmap : List.Forall₂ (fun a b => a = b) (xs.map f) ys :=
    List.forall₂_map_left_iff.mpr (h.imp fun _ _ => Eq.symm)
  rw [List.forall₂_eq_eq_eq] at hmap
  exact hmap.symm

section Eq

variable (hπ : ∀ {o p}, r.handle o p → p = π o)
include hπ

theorem Value.Alike.eq_rename {v w : Value} (hv : Value.Alike r v w) : w = v.rename π := by
  cases hv with
  | object ho => rw [hπ ho, Value.rename]
  | _ => rfl

theorem Error.Alike.eq_rename {e f : Error} (he : Error.Alike r e f) : f = e.rename π := by
  cases he with
  | thrown hv => rw [hv.eq_rename hπ, Error.rename]
  | refl hne =>
    cases e with
    | thrown v => exact (hne v rfl).elim
    | _ => rfl

theorem optionRel_eq_rename {x y : Option ObjectId} (hxy : Option.Rel r.handle x y) :
    y = x.map π := by
  cases hxy with
  | some ho => rw [hπ ho, Option.map_some]
  | none => rfl

theorem forall₂_eq_rename {vs ws : List Value} (h : List.Forall₂ (Value.Alike r) vs ws) :
    ws = vs.map (Value.rename π) :=
  eq_map_of_forall₂ (h.imp fun _ _ hv => hv.eq_rename hπ)

theorem Property.Alike.eq_rename (hspelling : ∀ {a b}, r.spelling a b → a = b) {p q : Property}
    (h : Property.Alike r p q) : q = p.rename π := by
  obtain ⟨access, value, dontEnum, dontDelete, watcher, spelling⟩ := p
  obtain ⟨access', value', dontEnum', dontDelete', watcher', spelling'⟩ := q
  have hspelled := optionRel_eq (optionRel_mono hspelling h.spelling)
  obtain ⟨haccess, hvalue, hdontEnum, hdontDelete, hwatcher, _⟩ := h
  dsimp only at haccess hvalue hdontEnum hdontDelete hwatcher hspelled
  subst hdontEnum hdontDelete hspelled
  rw [Property.rename, hvalue.eq_rename hπ]
  congr 1
  · cases haccess with
    | data => rfl
    | accessor hg hs => rw [optionRel_eq_rename hπ hg, optionRel_eq_rename hπ hs]
  · cases hwatcher with
    | none => rfl
    | @some w w' hw =>
      obtain ⟨name', callback', userData'⟩ := w'
      obtain ⟨hname, hcallback, huserData⟩ := hw
      dsimp only at hname hcallback huserData
      rw [hπ hcallback, huserData.eq_rename hπ, ← hname, Option.map_some]

end Eq

/-- A slot is renamed alike by maps that agree on what it refers to. -/
theorem Property.rename_congr {ρ : ObjectId → ObjectId} {p : Property}
    (h : ∀ o ∈ p.references, π o = ρ o) : p.rename π = p.rename ρ := by
  let both : Matching := ⟨fun o q => q = π o ∧ q = ρ o, Eq⟩
  have hp : Property.Alike both p (p.rename π) :=
    property_alike_rename (fun _ => rfl) fun o ho => ⟨rfl, h o ho⟩
  exact hp.eq_rename And.right id

end ActionScript
