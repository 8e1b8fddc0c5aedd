import ActionScript.Main
import ActionScript.Proofs.Command.Converted

/-! # The movie that commands run in

The built-in objects depend on the settings only in whether case counts (`Movie.new_eq_under`), so
two movies show what holds at the start of every run: arrays are asked for a number in vain
(`Movie.ordinary_new`). -/

namespace ActionScript

/-! ## Setting up under other settings -/

namespace Movie

/-- The movie with other settings and random numbers. -/
def under (m : Movie) (s : Settings) (random : UInt64) : Movie := { m with settings := s, random }

/-- Settings that fold case alike give the same normal forms. -/
theorem normalize_under {m : Movie} {s : Settings}
    (hs : s.caseSensitive = m.settings.caseSensitive) (random : UInt64) (name : String) :
    (m.under s random).normalize name = m.normalize name := by
  show s.normalize name = m.settings.normalize name
  rw [Settings.normalize, Settings.normalize, hs]

/-- They also spell new slots alike. -/
theorem spelled_under {m : Movie} {s : Settings}
    (hs : s.caseSensitive = m.settings.caseSensitive) (random : UInt64) (name : String)
    (p : Property) : (m.under s random).spelled name p = m.spelled name p := by
  show (if s.caseSensitive then _ else _) = _
  rw [hs]
  rfl

end Movie

/-- The edit does the same under all settings that treat case alike. -/
structure Edit.Uniform {α : Type} (x : Edit α) : Prop where
  under : ∀ {m : Movie} {s : Settings}, s.caseSensitive = m.settings.caseSensitive → ∀ random,
    x (m.under s random) = ((x m).1, (x m).2.under s random)
  settings : ∀ m, (x m).2.settings = m.settings

namespace Edit.Uniform

open Movie

variable {α β : Type}

theorem pure (a : α) : Uniform (pure a) := ⟨fun _ _ => rfl, fun _ => rfl⟩

/-- Uniform edits compose. -/
theorem bind {x : Edit α} {f : α → Edit β} (hx : Uniform x) (hf : ∀ a, Uniform (f a)) :
    Uniform (x >>= f) := by
  constructor
  · intro m s hs random
    show f (x (m.under s random)).1 (x (m.under s random)).2 = _
    rw [hx.under hs, (hf (x m).1).under (by rw [hx.settings, hs])]
    rfl
  · intro m
    exact ((hf (x m).1).settings _).trans (hx.settings m)

/-- An edit that looks at the movie, but neither at its settings nor at its random numbers. -/
theorem get {f : Movie → Edit β} (hf : ∀ m, Uniform (f m))
    (hsame : ∀ m s random, f (m.under s random) = f m) : Uniform (get >>= f) := by
  constructor
  · intro m s hs random
    show f (m.under s random) (m.under s random) = _
    rw [hsame, (hf m).under hs]
    rfl
  · exact fun m => (hf m).settings m

theorem onHeap (f : Heap → α × Heap) : Uniform (onHeap f) := ⟨fun _ _ => rfl, fun _ => rfl⟩

theorem assign (role : Intrinsics → Intrinsics) : Uniform (assign role) :=
  ⟨fun _ _ => rfl, fun _ => rfl⟩

theorem define (o : ObjectId) (name : String) (p : Property) : Uniform (define o name p) := by
  have hdefine (m : Movie) : Movie.define o name p m =
      ((), { m with heap := m.heap.store o (m.normalize name) (m.spelled name p) }) := rfl
  constructor
  · intro m s hs random
    rw [hdefine, hdefine, normalize_under hs, spelled_under hs]
    rfl
  · exact fun _ => rfl

theorem create (prototype : Option ObjectId) (kind : Kind) : Uniform (create prototype kind) :=
  .onHeap _

theorem createObject : Uniform createObject :=
  .get (fun _ => .create _ .plain) fun _ _ _ => rfl

theorem createNative (name : String) (call : Code) (construct : Option Code) :
    Uniform (createNative name call construct) :=
  .get (fun _ => .create ..) fun _ _ _ => rfl

theorem addMethod (o : ObjectId) (name : String) (routine : Builtin) :
    Uniform (addMethod o name routine) :=
  .bind (.createNative ..) fun _ => .define ..

theorem addMethods (o : ObjectId) (methods : List (String × Builtin)) :
    Uniform (addMethods o methods) := by
  rw [Movie.addMethods]
  induction methods with
  | nil => exact .pure ()
  | cons method methods ih => exact .bind (.addMethod ..) fun _ => ih

theorem addConstant (o : ObjectId) (name : String) (x : Number) : Uniform (addConstant o name x) :=
  .define ..

theorem publish (name : String) (o : ObjectId) : Uniform (publish name o) :=
  .get (fun _ => .define ..) fun _ _ _ => rfl

/-- Adding a class does not depend on the settings beyond the folding of case. -/
theorem addClass (name : String) (prototype : ObjectId) (call construct : Builtin) :
    Uniform (addClass name prototype call construct) :=
  .bind (.createNative ..) fun _ =>
    .bind (.bind (.define ..) fun _ => .define ..) fun _ => .bind (.publish ..) fun _ => .pure _

theorem addBuiltinClass (name : String) (call construct : Builtin)
    (prototypeRole classRole : ObjectId → Intrinsics → Intrinsics) :
    Uniform (addBuiltinClass name call construct prototypeRole classRole) :=
  .bind .createObject fun _ => .bind (.assign _) fun _ => .bind (.addClass ..) fun _ =>
    .bind (.assign _) fun _ => .pure _

theorem setupRoots (o : ObjectId) : Uniform (setupRoots o) :=
  .bind (.assign _) fun _ => .bind (.create ..) fun _ => .bind (.assign _) fun _ =>
    .bind .createObject fun _ => ⟨fun _ _ => rfl, fun _ => rfl⟩

theorem setupObject : Uniform setupObject :=
  .get (fun _ => .bind (.addClass ..) fun _ => .bind (.assign _) fun _ =>
    .bind (.addMethod ..) fun _ => .addMethods ..) fun _ _ _ => rfl

theorem setupFunction : Uniform setupFunction :=
  .get (fun _ => .bind (.addClass ..) fun _ => .bind (.assign _) fun _ => .addMethods ..)
    fun _ _ _ => rfl

theorem setupError : Uniform setupError :=
  .bind .createObject fun _ => .bind (.assign _) fun _ => .bind (.define ..) fun _ =>
    .bind (.define ..) fun _ => .bind (.addMethod ..) fun _ => .bind (.addClass ..) fun _ =>
    .assign _

theorem setupNumber : Uniform setupNumber :=
  .bind (.addBuiltinClass ..) fun _ => .bind (.addConstant ..) fun _ =>
    .bind (.addConstant ..) fun _ => .bind (.addConstant ..) fun _ =>
    .bind (.addConstant ..) fun _ => .bind (.addConstant ..) fun _ => .addMethods ..

theorem setupMath : Uniform setupMath :=
  .bind .createObject fun _ => .bind (.assign _) fun _ => .bind (.publish ..) fun _ =>
    .bind (.addConstant ..) fun _ => .bind (.addConstant ..) fun _ => .addMethods ..

theorem setupGlobal : Uniform setupGlobal :=
  .get (fun _ => .bind (.addConstant ..) fun _ => .bind (.addConstant ..) fun _ =>
    .bind (.addMethod ..) fun _ => .publish ..) fun _ _ _ => rfl

/-- The whole start of a movie does not depend on the settings beyond the folding of case. -/
theorem setup : Uniform setup :=
  .bind (.create none .plain) fun _ => .bind (.setupRoots _) fun _ => .bind .setupObject fun _ =>
    .bind .setupFunction fun _ => .bind .setupError fun _ =>
    .bind (.bind (.addBuiltinClass ..) fun _ => .addMethods ..) fun _ =>
    .bind .setupNumber fun _ =>
    .bind (.bind (.addBuiltinClass ..) fun _ => .addMethods ..) fun _ =>
    .bind .setupMath fun _ =>
    .bind (.bind (.addBuiltinClass ..) fun _ => .addMethods ..) fun _ =>
    .bind (.bind (.addBuiltinClass ..) fun _ => .addMethods ..) fun _ => .setupGlobal

end Edit.Uniform

namespace Movie

/-- New movies that fold case alike differ in settings and seed only. -/
theorem new_eq_under {s t : Settings} (h : s.caseSensitive = t.caseSensitive) :
    new s = (new t).under s (Random.start s.seed) := by
  have hunder := Edit.Uniform.setup.under (m := { settings := t, random := Random.start t.seed }) h
    (Random.start s.seed)
  rw [new, new, StateT.run, StateT.run]
  exact congrArg Prod.snd hunder

theorem settings_new (s : Settings) : (new s).settings = s := by
  rw [new_eq_under rfl]
  rfl

/-- What does not depend on the settings but for whether case counts is shown by two movies. -/
theorem new_of_under {P : Movie → Prop}
    (hunder : ∀ {m s}, P m → s.caseSensitive = m.settings.caseSensitive → ∀ random,
      P (m.under s random))
    (hsensitive : P (new {})) (hfolding : P (new { version := 6 })) (s : Settings) : P (new s) := by
  cases hcase : s.caseSensitive with
  | true =>
    rw [new_eq_under (t := {}) hcase]
    exact hunder hsensitive (by rw [hcase, settings_new]; rfl) _
  | false =>
    rw [new_eq_under (t := { version := 6 }) hcase]
    exact hunder hfolding (by rw [hcase, settings_new]; rfl) _

/-! ## Arrays as numbers at the start -/

/-- An ordinary movie is so under other settings. -/
theorem Ordinary.under {m : Movie} (hm : m.Ordinary) {s : Settings}
    (hs : s.caseSensitive = m.settings.caseSensitive) (random : UInt64) :
    (m.under s random).Ordinary := by
  obtain ⟨f, flags, hslot, hcallable⟩ := hm.method
  have hkey : (m.under s random).valueOfKey = m.valueOfKey := normalize_under hs random "valueOf"
  refine ⟨hm.arena, hm.executor, hm.prototype, ?_, f, flags, ?_, hcallable⟩
  · rw [hkey]
    exact hm.notOwn
  · rw [hkey, spelled_under hs]
    exact hslot

/-- Every movie starts ordinary. -/
theorem ordinary_new (s : Settings) : (new s).Ordinary := by
  have hsensitive : (new {}).Ordinary :=
    ⟨(Session.reached_new _).arena, by decide +kernel, by decide +kernel, by decide +kernel,
      ⟨6⟩, .hidden, by decide +kernel, by decide +kernel⟩
  have hfolding : (new { version := 6 }).Ordinary :=
    ⟨(Session.reached_new _).arena, by decide +kernel, by decide +kernel, by decide +kernel,
      ⟨6⟩, .hidden, by decide +kernel, by decide +kernel⟩
  exact new_of_under (fun hm hs random => hm.under hs random) hsensitive hfolding s

end Movie

end ActionScript
