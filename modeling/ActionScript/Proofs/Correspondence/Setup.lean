import ActionScript.Movie.Setup
import ActionScript.Proofs.Correspondence.Edit

/-! # The built-in objects side by side

Creating the built-in objects respects every correspondence. -/

namespace ActionScript

theorem forall₂_set {α β : Type} {p : α → β → Prop} {xs : List α} {ys : List β} {a : α} {b : β}
    (h : List.Forall₂ p xs ys) (hab : p a b) (k : Nat) :
    List.Forall₂ p (xs.set k a) (ys.set k b) := by
  induction h generalizing k with
  | nil => exact .nil
  | cons hxy hrest ih =>
    cases k with
    | zero => exact .cons hab hrest
    | succ k => exact .cons hxy (ih k)

namespace Correspondence

variable {σ : Type} [Journal σ] {C : Correspondence σ} {r : Matching} {s t : State σ}

/-- The objects take the same role among the built-in ones. -/
theorem Edits.assign {role role' : Intrinsics → Intrinsics} {o o' : ObjectId} (k : Nat)
    (hrole : ∀ i, (role i).all = i.all.set k o) (hrole' : ∀ i, (role' i).all = i.all.set k o')
    (ho : r.handle o o') :
    C.Edits s t r (Movie.assign role) (Movie.assign role') fun _ _ _ => True := by
  refine .replace (fun {m m'} hm => ⟨{ hm with intrinsics := ?_ }, trivial⟩) (fun _ => ⟨rfl, rfl⟩)
    fun _ => rfl
  show List.Forall₂ r.handle (role m.intrinsics).all (role' m'.intrinsics).all
  rw [hrole, hrole']
  exact forall₂_set hm.intrinsics ho k

theorem Edits.addMethod {o o' : ObjectId} (ho : r.handle o o') (name : String)
    (routine : Builtin) :
    C.Edits s t r (Movie.addMethod o name routine) (Movie.addMethod o' name routine)
      fun _ _ _ => True := by
  refine .bind (.createFunction _) fun hle hf => ?_
  exact .define (hle.1 ho) name (.data (.object hf) _)

theorem Edits.addMethods {o o' : ObjectId} (ho : r.handle o o')
    (methods : List (String × Builtin)) :
    C.Edits s t r (Movie.addMethods o methods) (Movie.addMethods o' methods)
      fun _ _ _ => True :=
  .forM fun method hle => .addMethod (hle.1 ho) method.1 method.2

theorem Edits.addConstant {o o' : ObjectId} (ho : r.handle o o') (name : String) (x : Number) :
    C.Edits s t r (Movie.addConstant o name x) (Movie.addConstant o' name x)
      fun _ _ _ => True :=
  .define ho name (.data .number _)

theorem Edits.publish (name : String) {o o' : ObjectId} (ho : r.handle o o') :
    C.Edits s t r (Movie.publish name o) (Movie.publish name o') fun _ _ _ => True :=
  .get fun hm => .define hm.global name (.data (.object ho) _)

theorem Edits.addClass (name : String) {p p' : ObjectId} (hp : r.handle p p')
    (call construct : Builtin) :
    C.Edits s t r (Movie.addClass name p call construct) (Movie.addClass name p' call construct)
      fun r' o o' => r'.handle o o' := by
  refine .bind (.createFunction _) fun hle hc => ?_
  refine .bind (.linkConstructor hc (hle.1 hp)) fun hle₁ _ => ?_
  refine .bind (.publish name (hle₁.1 hc)) fun hle₂ _ => ?_
  exact .pure (hle₂.1 (hle₁.1 hc))

theorem Edits.setupRoots {o o' : ObjectId} (ho : r.handle o o') :
    C.Edits s t r (Movie.setupRoots o) (Movie.setupRoots o') fun _ _ _ => True := by
  refine .bind (.assign 1 (fun _ => rfl) (fun _ => rfl) ho) fun hle _ => ?_
  refine .bind (.create (.some (hle.1 ho)) _) fun _ hf => ?_
  refine .bind (.assign 3 (fun _ => rfl) (fun _ => rfl) hf) fun _ _ => ?_
  refine .bind .createObject fun _ hg => ?_
  refine .replace (fun hm => ⟨?_, trivial⟩) (fun _ => ⟨rfl, rfl⟩) fun _ => rfl
  exact { hm with global := hg }

theorem Edits.setupObject :
    C.Edits s t r Movie.setupObject Movie.setupObject fun _ _ _ => True := by
  refine .get fun hm => ?_
  refine .bind (.addClass _ hm.objectPrototype _ _) fun hle hc => ?_
  refine .bind (.assign 0 (fun _ => rfl) (fun _ => rfl) hc) fun hle₁ _ => ?_
  refine .bind (.addMethod (hle₁.1 hc) _ _) fun hle₂ _ => ?_
  exact .addMethods ((hle.trans (hle₁.trans hle₂)).1 hm.objectPrototype) _

theorem Edits.setupFunction :
    C.Edits s t r Movie.setupFunction Movie.setupFunction fun _ _ _ => True := by
  refine .get fun hm => ?_
  refine .bind (.addClass _ hm.functionPrototype _ _) fun hle hc => ?_
  refine .bind (.assign 2 (fun _ => rfl) (fun _ => rfl) hc) fun hle₁ _ => ?_
  exact .addMethods ((hle.trans hle₁).1 hm.functionPrototype) _

theorem Edits.setupError :
    C.Edits s t r Movie.setupError Movie.setupError fun _ _ _ => True := by
  refine .bind .createObject fun _ hp => ?_
  refine .bind (.assign 16 (fun _ => rfl) (fun _ => rfl) hp) fun hle₁ _ => ?_
  refine .bind (.define (hle₁.1 hp) _ (.data .string _)) fun hle₂ _ => ?_
  have hp := (hle₁.trans hle₂).1 hp
  refine .bind (.define hp _ (.data .string _)) fun hle₃ _ => ?_
  refine .bind (.addMethod (hle₃.1 hp) _ _) fun hle₄ _ => ?_
  refine .bind (.addClass _ ((hle₃.trans hle₄).1 hp) _ _) fun _ hc => ?_
  exact .assign 15 (fun _ => rfl) (fun _ => rfl) hc

/-- A class with a prototype of its own, in the roles `j` and `k`. -/
theorem Edits.addBuiltinClass {prototypeRole classRole : ObjectId → Intrinsics → Intrinsics}
    (j k : Nat) (hprototype : ∀ o i, (prototypeRole o i).all = i.all.set j o)
    (hclass : ∀ o i, (classRole o i).all = i.all.set k o) (name : String)
    (call construct : Builtin) :
    C.Edits s t r (Movie.addBuiltinClass name call construct prototypeRole classRole)
      (Movie.addBuiltinClass name call construct prototypeRole classRole)
      fun r' c c' => r'.handle c.1 c'.1 ∧ r'.handle c.2 c'.2 := by
  refine .bind .createObject fun _ hp => ?_
  refine .bind (.assign j (hprototype _) (hprototype _) hp) fun hle₁ _ => ?_
  refine .bind (.addClass name (hle₁.1 hp) call construct) fun hle₂ hc => ?_
  refine .bind (.assign k (hclass _) (hclass _) hc) fun hle₃ _ => ?_
  exact .pure ⟨(hle₁.trans (hle₂.trans hle₃)).1 hp, hle₃.1 hc⟩

theorem Edits.setupArray :
    C.Edits s t r Movie.setupArray Movie.setupArray fun _ _ _ => True := by
  refine .bind (.addBuiltinClass 5 4 (fun _ _ => rfl) (fun _ _ => rfl) _ _ _) fun _ hc => ?_
  exact .addMethods hc.1 _

theorem Edits.setupNumber :
    C.Edits s t r Movie.setupNumber Movie.setupNumber fun _ _ _ => True := by
  refine .bind (.addBuiltinClass 7 6 (fun _ _ => rfl) (fun _ _ => rfl) _ _ _) fun _ hc => ?_
  refine .bind (.addConstant hc.2 _ _) fun hle₁ _ => ?_
  refine .bind (.addConstant (hle₁.1 hc.2) _ _) fun hle₂ _ => ?_
  have hle₂ := hle₁.trans hle₂
  refine .bind (.addConstant (hle₂.1 hc.2) _ _) fun hle₃ _ => ?_
  have hle₃ := hle₂.trans hle₃
  refine .bind (.addConstant (hle₃.1 hc.2) _ _) fun hle₄ _ => ?_
  have hle₄ := hle₃.trans hle₄
  refine .bind (.addConstant (hle₄.1 hc.2) _ _) fun hle₅ _ => ?_
  exact .addMethods ((hle₄.trans hle₅).1 hc.1) _

theorem Edits.setupBoolean :
    C.Edits s t r Movie.setupBoolean Movie.setupBoolean fun _ _ _ => True := by
  refine .bind (.addBuiltinClass 9 8 (fun _ _ => rfl) (fun _ _ => rfl) _ _ _) fun _ hc => ?_
  exact .addMethods hc.1 _

theorem Edits.setupMath :
    C.Edits s t r Movie.setupMath Movie.setupMath fun _ _ _ => True := by
  refine .bind .createObject fun _ hmath => ?_
  refine .bind (.assign 14 (fun _ => rfl) (fun _ => rfl) hmath) fun hle₁ _ => ?_
  refine .bind (.publish _ (hle₁.1 hmath)) fun hle₂ _ => ?_
  have hle₂ := hle₁.trans hle₂
  refine .bind (.addConstant (hle₂.1 hmath) _ _) fun hle₃ _ => ?_
  have hle₃ := hle₂.trans hle₃
  refine .bind (.addConstant (hle₃.1 hmath) _ _) fun hle₄ _ => ?_
  exact .addMethods ((hle₃.trans hle₄).1 hmath) _

theorem Edits.setupString :
    C.Edits s t r Movie.setupString Movie.setupString fun _ _ _ => True := by
  refine .bind (.addBuiltinClass 11 10 (fun _ _ => rfl) (fun _ _ => rfl) _ _ _) fun _ hc => ?_
  exact .addMethods hc.1 _

theorem Edits.setupDate :
    C.Edits s t r Movie.setupDate Movie.setupDate fun _ _ _ => True := by
  refine .bind (.addBuiltinClass 13 12 (fun _ _ => rfl) (fun _ _ => rfl) _ _ _) fun _ hc => ?_
  exact .addMethods hc.1 _

theorem Edits.setupGlobal :
    C.Edits s t r Movie.setupGlobal Movie.setupGlobal fun _ _ _ => True := by
  refine .get fun hm => ?_
  refine .bind (.addConstant hm.global _ _) fun hle₁ _ => ?_
  refine .bind (.addConstant (hle₁.1 hm.global) _ _) fun hle₂ _ => ?_
  have hle₂ := hle₁.trans hle₂
  refine .bind (.addMethod (hle₂.1 hm.global) _ _) fun hle₃ _ => ?_
  exact .publish _ ((hle₂.trans hle₃).1 hm.global)

theorem Edits.setupFrom {o o' : ObjectId} (ho : r.handle o o') :
    C.Edits s t r (Movie.setupFrom o) (Movie.setupFrom o') fun _ _ _ => True := by
  refine .bind (.setupRoots ho) fun _ _ => ?_
  refine .bind .setupObject fun _ _ => ?_
  refine .bind .setupFunction fun _ _ => ?_
  refine .bind .setupError fun _ _ => ?_
  refine .bind .setupArray fun _ _ => ?_
  refine .bind .setupNumber fun _ _ => ?_
  refine .bind .setupBoolean fun _ _ => ?_
  refine .bind .setupMath fun _ _ => ?_
  refine .bind .setupString fun _ _ => ?_
  exact .bind .setupDate fun _ _ => .setupGlobal

end Correspondence

end ActionScript
