import ActionScript.Machine.Basic
import ActionScript.Proofs.Alike.Change

/-! # Runs side by side

A correspondence relates the states of two runs of one machine under a matching that grows as the
runs create objects. It names what a change of alike movies has to respect: creating alike objects,
changing and linking them alike, and dropping the same slots of them. Edits, updates and runs whose
parts correspond correspond as a whole. -/

namespace ActionScript

/-- Results are alike if both are values that stand for each other or both are alike errors. -/
inductive Result.Alike {α β : Type} (r : Matching) (post : α → β → Prop) :
    Except Error α → Except Error β → Prop
  | ok : post a b → Alike r post (.ok a) (.ok b)
  | error : Error.Alike r e f → Alike r post (.error e) (.error f)

theorem Result.Alike.imp {α β : Type} {r : Matching} {p q : α → β → Prop}
    (h : ∀ {a b}, p a b → q a b) {x : Except Error α} {y : Except Error β}
    (hxy : Result.Alike r p x y) : Result.Alike r q x y := by
  cases hxy with
  | ok hab => exact .ok (h hab)
  | error he => exact .error he

variable {σ : Type} [Journal σ]

/-- The state after an edit has left the given movie. -/
def State.after (s : State σ) (movie : Movie) : State σ := ⟨movie, Journal.record movie s.embedder⟩

/-- A change of an object that keeps its prototype and the order of its keys, and may add keys. -/
def Object.Extends (f : Object → Object) : Prop :=
  ∀ x, (f x).prototype = x.prototype ∧ x.properties.keys <+: (f x).properties.keys

omit [Journal σ] in
theorem Run.bind_ok {α β : Type} {x : Run σ α} {f : α → Run σ β} {s s' : State σ} {a : α}
    (h : x s = (.ok a, s')) : (x >>= f) s = f a s' := by
  show ExceptT.bindCont f (x s).1 (x s).2 = f a s'
  rw [h]
  rfl

omit [Journal σ] in
theorem Run.bind_error {α β : Type} {x : Run σ α} {f : α → Run σ β} {s s' : State σ} {e : Error}
    (h : x s = (.error e, s')) : (x >>= f) s = (.error e, s') := by
  show ExceptT.bindCont f (x s).1 (x s).2 = _
  rw [h]
  rfl

/-- Drops the slots of an object whose keys have a property. -/
def Object.dropSlots (p : String → Bool) (x : Object) : Object :=
  { x with properties := x.properties.eraseWhere p }

structure Correspondence (σ : Type) [Journal σ] where
  state : Matching → State σ → State σ → Prop
  /-- What holds of the movies within edits that began in the given states. -/
  editing : State σ → State σ → Matching → Movie → Movie → Prop
  start : state r s t → editing s t r s.movie t.movie
  finish : editing s t r m m' → state r (s.after m) (t.after m')
  alike : editing s t r m m' → Movie.Alike r m m'
  allocate : editing s t r m m' → Object.Alike r x x' →
    ∃ r', r ≤ r' ∧ r'.handle (m.heap.allocate x).1 (m'.heap.allocate x').1 ∧
      editing s t r' { m with heap := (m.heap.allocate x).2 }
        { m' with heap := (m'.heap.allocate x').2 }
  modify : editing s t r m m' → r.handle o o' → Object.Extends f → Object.Extends f' →
    (∀ {x x'}, Object.Alike r x x' → Object.Alike r (f x) (f' x')) →
    editing s t r { m with heap := m.heap.modify o f } { m' with heap := m'.heap.modify o' f' }
  setPrototype : editing s t r m m' → r.handle o o' → Option.Rel r.handle p p' →
    editing s t r { m with heap := (m.heap.setPrototype o p).2 }
      { m' with heap := (m'.heap.setPrototype o' p').2 }
  /-- The registries may change in any way that keeps the movies alike. -/
  replace : editing s t r m m' → Movie.Alike r n n' → n.settings = m.settings →
    n.heap = m.heap → n'.heap = m'.heap → editing s t r n n'
  /-- An edit that drops slots does nothing else. -/
  drop : state r s t → r.handle o o' →
    state r (s.after { s.movie with heap := s.movie.heap.modify o (Object.dropSlots p) })
      (t.after { t.movie with heap := t.movie.heap.modify o' (Object.dropSlots p) })

namespace Correspondence

variable (C : Correspondence σ) {r r' : Matching} {s t : State σ} {α β γ δ : Type}

/-! ## Edits -/

def Edits (s t : State σ) (r : Matching) (x : Edit α) (y : Edit β)
    (post : Matching → α → β → Prop) : Prop :=
  ∀ m m', C.editing s t r m m' →
    ∃ r', r ≤ r' ∧ C.editing s t r' (x m).2 (y m').2 ∧ post r' (x m).1 (y m').1

variable {C}
variable {post mid : Matching → α → β → Prop} {post' : Matching → γ → δ → Prop}

theorem Edits.pure {a : α} {b : β} (h : post r a b) :
    C.Edits s t r (pure a) (pure b) post :=
  fun _ _ hm => ⟨r, le_refl r, hm, h⟩

/-- Edits that correspond compose, under the pairs the first ones add. -/
theorem Edits.bind {x : Edit α} {y : Edit β} {f : α → Edit γ} {g : β → Edit δ}
    (hx : C.Edits s t r x y post)
    (hf : ∀ {r' a b}, r ≤ r' → post r' a b → C.Edits s t r' (f a) (g b) post') :
    C.Edits s t r (x >>= f) (y >>= g) post' := by
  intro m m' hm
  obtain ⟨r₁, hle, hm, hab⟩ := hx m m' hm
  obtain ⟨r₂, hle', hm, hcd⟩ := hf hle hab _ _ hm
  exact ⟨r₂, hle.trans hle', hm, hcd⟩

theorem Edits.get {f : Movie → Edit γ} {g : Movie → Edit δ}
    (hf : ∀ {m m'}, Movie.Alike r m m' → C.Edits s t r (f m) (g m') post') :
    C.Edits s t r (get >>= f) (get >>= g) post' :=
  fun m m' hm => hf (C.alike hm) m m' hm

theorem Edits.forM {f g : α → Edit PUnit} {xs : List α}
    (hf : ∀ {r'} a, r ≤ r' → C.Edits s t r' (f a) (g a) fun _ _ _ => True) :
    C.Edits s t r (xs.forM f) (xs.forM g) fun _ _ _ => True := by
  induction xs generalizing r with
  | nil => exact .pure trivial
  | cons a xs ih =>
    exact .bind (hf a (le_refl r)) fun hle _ => ih fun b hle' => hf b (hle.trans hle')

/-! ### The edits that all others are made of -/

/-- Allocating alike objects pairs the new handles. -/
theorem Edits.allocate {x x' : Object} (hx : Object.Alike r x x') :
    C.Edits s t r (Movie.onHeap (·.allocate x)) (Movie.onHeap (·.allocate x'))
      fun r' o o' => r'.handle o o' := by
  intro m m' hm
  obtain ⟨r', hle, ho, hm⟩ := C.allocate hm hx
  exact ⟨r', hle, hm, ho⟩

theorem Edits.create {p p' : Option ObjectId} (hp : Option.Rel r.handle p p') (kind : Kind) :
    C.Edits s t r (Movie.create p kind) (Movie.create p' kind) fun r' o o' => r'.handle o o' :=
  .allocate ⟨List.Forall₂.nil, hp, rfl, rfl, rfl⟩

/-- Changing paired objects alike keeps the movies alike. -/
theorem Edits.modify {o o' : ObjectId} {f f' : Object → Object} (ho : r.handle o o')
    (hf : Object.Extends f) (hf' : Object.Extends f')
    (halike : ∀ {x x'}, Object.Alike r x x' → Object.Alike r (f x) (f' x')) :
    C.Edits s t r (Movie.modifyHeap (·.modify o f)) (Movie.modifyHeap (·.modify o' f'))
      fun _ _ _ => True :=
  fun _ _ hm => ⟨r, le_refl r, C.modify hm ho hf hf' halike, trivial⟩

/-- Relinking paired objects is refused in both movies, or in none. -/
theorem Edits.setPrototype {o o' : ObjectId} {p p' : Option ObjectId} (ho : r.handle o o')
    (hp : Option.Rel r.handle p p') :
    C.Edits s t r (Movie.setPrototype o p) (Movie.setPrototype o' p') fun _ b b' => b = b' :=
  fun _ _ hm => ⟨r, le_refl r, C.setPrototype hm ho hp, ((C.alike hm).setPrototype ho hp).1⟩

/-- Changes of the registries. -/
theorem Edits.replace {f f' : Movie → α × Movie} {post : Matching → α → α → Prop}
    (hf : ∀ {m m'}, Movie.Alike r m m' →
      Movie.Alike r (f m).2 (f' m').2 ∧ post r (f m).1 (f' m').1)
    (hkept : ∀ m, (f m).2.settings = m.settings ∧ (f m).2.heap = m.heap)
    (hheap' : ∀ m, (f' m).2.heap = m.heap) : C.Edits s t r f f' post := by
  intro m m' hm
  obtain ⟨halike, hpost⟩ := hf (C.alike hm)
  exact ⟨r, le_refl r, C.replace hm halike (hkept m).1 (hkept m).2 (hheap' m'), hpost⟩

/-! ## Updates -/

variable (C) in
def Updates (r : Matching) (x : Update σ α) (y : Update σ β) (post : Matching → α → β → Prop) :
    Prop :=
  ∀ s t, C.state r s t → ∃ r', r ≤ r' ∧ C.state r' (x s).2 (y t).2 ∧ post r' (x s).1 (y t).1

theorem Updates.pure {a : α} {b : β} (h : post r a b) : C.Updates r (pure a) (pure b) post :=
  fun _ _ hs => ⟨r, le_refl r, hs, h⟩

/-- Updates that correspond compose. -/
theorem Updates.bind {x : Update σ α} {y : Update σ β} {f : α → Update σ γ} {g : β → Update σ δ}
    (hx : C.Updates r x y post)
    (hf : ∀ {r' a b}, r ≤ r' → post r' a b → C.Updates r' (f a) (g b) post') :
    C.Updates r (x >>= f) (y >>= g) post' := by
  intro s t hs
  obtain ⟨r₁, hle, hs, hab⟩ := hx s t hs
  obtain ⟨r₂, hle', hs, hcd⟩ := hf hle hab _ _ hs
  exact ⟨r₂, hle.trans hle', hs, hcd⟩

theorem Updates.edit {x : Edit α} {y : Edit β} (h : ∀ s t, C.Edits s t r x y post) :
    C.Updates r (liftM x) (liftM y) post := by
  intro s t hs
  obtain ⟨r', hle, hm, hab⟩ := h s t _ _ (C.start hs)
  exact ⟨r', hle, C.finish hm, hab⟩

theorem Updates.movie {f : Movie → Update σ γ} {g : Movie → Update σ δ}
    (hf : ∀ {m m'}, Movie.Alike r m m' → C.Updates r (f m) (g m') post') :
    C.Updates r (liftM getMovie >>= f) (liftM getMovie >>= g) post' :=
  fun _ _ hs => hf (C.alike (C.start hs)) _ _ (C.finish (C.start hs))

theorem Updates.forM {f g : α → Update σ PUnit} {xs : List α}
    (hf : ∀ {r'} a, r ≤ r' → C.Updates r' (f a) (g a) fun _ _ _ => True) :
    C.Updates r (xs.forM f) (xs.forM g) fun _ _ _ => True := by
  induction xs generalizing r with
  | nil => exact .pure trivial
  | cons a xs ih =>
    exact .bind (hf a (le_refl r)) fun hle _ => ih fun b hle' => hf b (hle.trans hle')

/-- Dropping the same slots of objects that stand for each other. -/
theorem Updates.drop {o o' : ObjectId} (p : String → Bool) (ho : r.handle o o') :
    C.Updates r (liftM (Movie.modifyHeap (·.modify o (Object.dropSlots p))))
      (liftM (Movie.modifyHeap (·.modify o' (Object.dropSlots p)))) fun _ _ _ => True :=
  fun _ _ hs => ⟨r, le_refl r, C.drop hs ho, trivial⟩

/-! ## Runs -/

variable (C) in
/-- The runs end with alike results. -/
def Runs (r : Matching) (x : Run σ α) (y : Run σ β) (post : Matching → α → β → Prop) : Prop :=
  ∀ s t, C.state r s t →
    ∃ r', r ≤ r' ∧ C.state r' (x s).2 (y t).2 ∧ Result.Alike r' (post r') (x s).1 (y t).1

theorem Runs.lift {x : Update σ α} {y : Update σ β} (h : C.Updates r x y post) :
    C.Runs r (liftM x) (liftM y) post := by
  intro s t hs
  obtain ⟨r', hle, hs, hab⟩ := h s t hs
  exact ⟨r', hle, hs, .ok hab⟩

theorem Runs.edit {x : Edit α} {y : Edit β} (h : ∀ s t, C.Edits s t r x y post) :
    C.Runs r (liftM x) (liftM y) post := Runs.lift (.edit h)

theorem Runs.pure {a : α} {b : β} (h : post r a b) : C.Runs r (pure a) (pure b) post :=
  fun _ _ hs => ⟨r, le_refl r, hs, .ok h⟩

theorem Runs.throw {e f : Error} (h : Error.Alike r e f) :
    C.Runs r (throw e) (throw f) post :=
  fun _ _ hs => ⟨r, le_refl r, hs, .error h⟩

/-- Runs that correspond compose; an error ends both. -/
theorem Runs.bind {x : Run σ α} {y : Run σ β} {f : α → Run σ γ} {g : β → Run σ δ}
    (hx : C.Runs r x y post)
    (hf : ∀ {r' a b}, r ≤ r' → post r' a b → C.Runs r' (f a) (g b) post') :
    C.Runs r (x >>= f) (y >>= g) post' := by
  intro s t hs
  obtain ⟨r₁, hle, hs', hres⟩ := hx s t hs
  rcases hx' : x s with ⟨a, s₁⟩
  rcases hy' : y t with ⟨b, t₁⟩
  rw [hx', hy'] at hs' hres
  cases hres with
  | error he =>
    rw [Run.bind_error hx', Run.bind_error hy']
    exact ⟨r₁, hle, hs', .error he⟩
  | ok hab =>
    rw [Run.bind_ok hx', Run.bind_ok hy']
    obtain ⟨r₂, hle', hs', hres⟩ := hf hle hab _ _ hs'
    exact ⟨r₂, hle.trans hle', hs', hres⟩

theorem Runs.movie {f : Movie → Run σ γ} {g : Movie → Run σ δ}
    (hf : ∀ {m m'}, Movie.Alike r m m' → C.Runs r (f m) (g m') post') :
    C.Runs r (liftM getMovie >>= f) (liftM getMovie >>= g) post' :=
  fun _ _ hs => hf (C.alike (C.start hs)) _ _ (C.finish (C.start hs))

/-- Corresponding runs start in movies that are alike. -/
theorem Runs.of_alike {x : Run σ α} {y : Run σ β}
    (h : ∀ {m m'}, Movie.Alike r m m' → C.Runs r x y post) : C.Runs r x y post :=
  fun s t hs => h (C.alike (C.start hs)) s t hs

/-- What two runs end with may be weakened. -/
theorem Runs.imp {x : Run σ α} {y : Run σ β} (hx : C.Runs r x y mid)
    (h : ∀ {r' a b}, r ≤ r' → mid r' a b → post r' a b) : C.Runs r x y post := by
  intro s t hs
  obtain ⟨r', hle, hs, hres⟩ := hx s t hs
  exact ⟨r', hle, hs, hres.imp (h hle)⟩

theorem Runs.map {x : Run σ α} {y : Run σ β} {f : α → γ} {g : β → δ} (hx : C.Runs r x y post)
    (h : ∀ {r' a b}, r ≤ r' → post r' a b → post' r' (f a) (g b)) :
    C.Runs r (f <$> x) (g <$> y) post' :=
  .bind hx fun hle hab => .pure (h hle hab)

theorem Runs.discard {x : Run σ α} {y : Run σ β} (hx : C.Runs r x y post) :
    C.Runs r (Functor.discard x) (Functor.discard y) fun _ _ _ => True :=
  .map hx fun _ _ => trivial

/-- Runs over lists related entry by entry correspond. -/
theorem Runs.mapM {f : α → Run σ γ} {g : β → Run σ δ} {p : Matching → α → β → Prop}
    (hp : ∀ {r r'}, r ≤ r' → ∀ {a b}, p r a b → p r' a b)
    (hpost : ∀ {r r'}, r ≤ r' → ∀ {c d}, post' r c d → post' r' c d)
    (hf : ∀ r' a b, r ≤ r' → p r' a b → C.Runs r' (f a) (g b) post')
    {xs : List α} {ys : List β} (hxs : List.Forall₂ (p r) xs ys) :
    C.Runs r (xs.mapM f) (ys.mapM g) fun r' => List.Forall₂ (post' r') := by
  induction xs generalizing r ys with
  | nil =>
    cases hxs
    exact .pure .nil
  | cons a xs ih =>
    cases hxs with
    | cons hab hrest =>
      rw [List.mapM_cons, List.mapM_cons]
      refine .bind (hf r _ _ (le_refl r) hab) fun hle hcd => ?_
      have hrest := hrest.imp fun _ _ => hp hle
      refine .bind (ih (fun r' _ _ hle' => hf r' _ _ (hle.trans hle')) hrest) fun hle' hout => ?_
      exact .pure (.cons (hpost hle' hcd) hout)

/-! ## Machines -/

variable (C) in
/-- Services that are given alike data answer alike. -/
structure Serves (services : Services σ) : Prop where
  function : ∀ {r} function {this this' args args'}, Value.Alike r this this' →
    List.Forall₂ (Value.Alike r) args args' →
    C.Runs r (services.function function this args) (services.function function this' args')
      Value.Alike
  initializeClass : ∀ {r} cls {state state'}, r.handle state state' →
    C.Runs r (services.initializeClass cls state) (services.initializeClass cls state')
      fun _ _ _ => True
  notify : ∀ {r} observer key,
    C.Updates r (services.notify observer key) (services.notify observer key) fun _ _ _ => True
  executeActions : ∀ {r} executor actions {scope scope'}, r.handle scope scope' →
    C.Runs r (services.executeActions executor actions scope)
      (services.executeActions executor actions scope') Value.Alike
  executeFunction : ∀ {r} executor {function function'} actions scope {this this' args args'},
    r.handle function function' → Value.Alike r this this' →
    List.Forall₂ (Value.Alike r) args args' →
    C.Runs r (services.executeFunction executor function actions scope this args)
      (services.executeFunction executor function' actions scope this' args') Value.Alike
  resolveTarget : ∀ {r} executor {target target'}, Value.Alike r target target' →
    C.Updates r (services.resolveTarget executor target)
      (services.resolveTarget executor target') fun r' => Option.Rel r'.handle
  checkTimeout : ∀ {r} executor,
    C.Runs r (services.checkTimeout executor) (services.checkTimeout executor) fun _ _ _ => True
  now : ∀ {r}, C.Updates r services.now services.now fun _ => Eq

variable (C) in
/-- Everything that the machine calls answers alike data alike. -/
structure Respects (m : Machine σ) : Prop where
  services : C.Serves m.services
  builtin : ∀ {r} routine {this this' args args'}, Value.Alike r this this' →
    List.Forall₂ (Value.Alike r) args args' →
    C.Runs r (m.builtin routine this args) (m.builtin routine this' args') Value.Alike

end Correspondence

end ActionScript
