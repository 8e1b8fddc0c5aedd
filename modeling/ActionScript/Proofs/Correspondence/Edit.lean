import ActionScript.Builtin.Date
import ActionScript.Movie.HostClass
import ActionScript.Proofs.Correspondence.Basic

/-! # Edits side by side

Every edit of a movie respects every correspondence. -/

namespace ActionScript

theorem Object.extends_insert (key : String) (p : Property) :
    Object.Extends fun x => { x with properties := x.properties.insert key p } :=
  fun x => ⟨rfl, x.properties.keys_prefix_insert key p⟩

theorem Object.extends_modify (key : String) (f : Property → Property) :
    Object.Extends fun x => { x with properties := x.properties.modify key f } := by
  intro x
  rw [Table.keys_modify]
  exact ⟨rfl, List.prefix_refl _⟩

/-- Removing a slot is a change of one object. -/
theorem Heap.remove_eq_modify (h : Heap) (o : ObjectId) (key : String) :
    h.remove o key = h.modify o (Object.dropSlots fun k => decide (k = key)) := by
  rw [remove]
  congr 1
  funext x
  rw [Object.dropSlots, Table.erase_eq_eraseWhere]

namespace Correspondence

variable {σ : Type} [Journal σ] {C : Correspondence σ} {r : Matching} {s t : State σ}

/-! ## Slots -/

section Slots

variable {o o' : ObjectId} (ho : r.handle o o')
include ho

/-- Storing alike slots on paired objects keeps the movies alike. -/
theorem Edits.store (key : String) {p p' : Property} (hp : Property.Alike r p p') :
    C.Edits s t r (Movie.modifyHeap (·.store o key p)) (Movie.modifyHeap (·.store o' key p'))
      fun _ _ _ => True := by
  refine .modify ho (Object.extends_insert key p) (Object.extends_insert key p') fun hx => ?_
  exact { hx with properties := hx.properties.insert biUnique_eq rfl hp }

/-- Changes alike slots alike, under each of the given keys. -/
theorem Edits.modifySlots (keys : List String) {f f' : Property → Property}
    (hf : ∀ {p p'}, Property.Alike r p p' → Property.Alike r (f p) (f' p')) :
    C.Edits s t r
      (Movie.modifyHeap fun h => keys.foldl (fun h key => h.modifySlot o key f) h)
      (Movie.modifyHeap fun h => keys.foldl (fun h key => h.modifySlot o' key f') h)
      fun _ _ _ => True := by
  intro m m' hm
  induction keys generalizing m m' with
  | nil => exact ⟨r, le_refl r, hm, trivial⟩
  | cons key keys ih =>
    have hfirst : C.editing s t r { m with heap := m.heap.modifySlot o key f }
        { m' with heap := m'.heap.modifySlot o' key f' } :=
      C.modify hm ho (Object.extends_modify key f) (Object.extends_modify key f') fun hx =>
        { hx with properties := hx.properties.modify biUnique_eq rfl hf }
    exact ih _ _ hfirst

/-- Changing paired slots alike keeps the movies alike. -/
theorem Edits.modifySlot (key : String) {f f' : Property → Property}
    (hf : ∀ {p p'}, Property.Alike r p p' → Property.Alike r (f p) (f' p')) :
    C.Edits s t r (Movie.modifyHeap (·.modifySlot o key f))
      (Movie.modifyHeap (·.modifySlot o' key f')) fun _ _ _ => True :=
  Edits.modifySlots ho [key] hf

/-- Storing under related spellings keeps the movies alike. -/
theorem Edits.storeAs (key : String) {name name' : String} (hname : r.spelling name name')
    {p p' : Property} (hp : Property.Alike r p p') :
    C.Edits s t r (Movie.storeAs o key name p) (Movie.storeAs o' key name' p')
      fun _ _ _ => True := by
  refine .get fun {m m'} hm => .store ho key ?_
  rw [Movie.spelled, Movie.spelled, hm.settings]
  split
  · exact hp
  · refine { hp with spelling := ?_ }
    rcases optionRel_cases hp.spelling with ⟨a, b, ha, hb, hab⟩ | ⟨ha, hb⟩
    · rw [ha, hb]
      exact .some hab
    · rw [ha, hb]
      exact .some hname

theorem Edits.define (name : String) {p p' : Property} (hp : Property.Alike r p p') :
    C.Edits s t r (Movie.define o name p) (Movie.define o' name p') fun _ _ _ => True := by
  refine .get fun hm => ?_
  rw [hm.normalize]
  exact .storeAs ho _ (hm.spellings name) hp

/-- Watching the same name of paired objects succeeds in both movies, or in none. -/
theorem Edits.setWatcher (name : String) {w w' : Option Watcher}
    (hw : Option.Rel (Watcher.Alike r) w w') :
    C.Edits s t r (Movie.setWatcher o name w) (Movie.setWatcher o' name w')
      fun _ b b' => b = b' := by
  refine .get fun {m m'} hm => ?_
  rw [hm.normalize]
  rcases optionRel_cases (hm.find? ho (m'.normalize name)) with
    ⟨⟨owner, p⟩, ⟨owner', p'⟩, he, he', howner, _⟩ | ⟨he, he'⟩
  · simp only [he, he']
    have hpresent := optionRel_isSome (hm.slot? howner (m'.normalize name))
    refine .bind (.modifySlot howner _ fun hp => hp.withWatcher hw) fun _ _ => ?_
    exact .pure hpresent
  · simp only [he, he']
    exact .pure rfl

/-- The flags of the same names change in both movies. -/
theorem Edits.setFlags (names : Option (List String)) (set clear : Flags) :
    C.Edits s t r (Movie.setFlags o names set clear) (Movie.setFlags o' names set clear)
      fun _ _ _ => True := by
  refine .get fun {m m'} hm => ?_
  have hkeys : ((m.heap.get? o).map fun x : Object => x.properties.keys) =
      (m'.heap.get? o').map fun x : Object => x.properties.keys := by
    rcases optionRel_cases (hm.objects ho) with ⟨x, x', hx, hx', halike⟩ | ⟨hx, hx'⟩
    · rw [hx, hx', Option.map_some, Option.map_some, halike.properties.keys_eq]
    · rw [hx, hx', Option.map_none]
  have hnormalize : m.normalize = m'.normalize := funext hm.normalize
  simp only [hkeys, hnormalize]
  exact .modifySlots ho _ fun hp => hp.adjust set clear

/-! ## Arrays -/

theorem Edits.setLength (n : Nat) :
    C.Edits s t r (Movie.setLength o n) (Movie.setLength o' n) fun _ _ _ => True := by
  refine .get fun hm => ?_
  rw [optionRel_isSome (hm.slot? ho Movie.lengthKey)]
  split
  · exact .modifySlot ho _ fun hp => hp.withValue .number
  · exact .define ho _ (.data .number _)

end Slots

/-- Alike elements make alike slots. -/
theorem elementSlots_alike {vs vs' : List Value} (hvs : List.Forall₂ (Value.Alike r) vs vs') :
    Table.Alike Eq (Property.Alike r) (Movie.elementSlots vs) (Movie.elementSlots vs') := by
  have hzip : ∀ n, List.Forall₂ (fun e e' => Value.Alike r e.1 e'.1 ∧ e.2 = e'.2)
      (vs.zipIdx n) (vs'.zipIdx n) := by
    induction hvs with
    | nil => exact fun _ => .nil
    | cons hv _ ih => exact fun n => .cons ⟨hv, rfl⟩ (ih (n + 1))
  refine List.rel_map (fun e e' he => ?_) (hzip 0)
  exact ⟨congrArg indexKey he.2, .data he.1 {}⟩

/-- Arrays of alike elements are paired as they are made. -/
theorem Edits.createArray {vs vs' : List Value} (hvs : List.Forall₂ (Value.Alike r) vs vs') :
    C.Edits s t r (Movie.createArray vs) (Movie.createArray vs') fun r' o o' => r'.handle o o' := by
  refine .get fun hm => ?_
  refine .bind (.allocate ⟨elementSlots_alike hvs, .some hm.arrayPrototype, rfl, rfl, rfl⟩)
    fun _ ho => ?_
  rw [hvs.length_eq]
  exact .bind (.setLength ho _) fun hle _ => .pure (hle.1 ho)

/-! ## Objects and functions -/

theorem Edits.createObject :
    C.Edits s t r Movie.createObject Movie.createObject fun r' o o' => r'.handle o o' :=
  .get fun hm => .create (.some hm.objectPrototype) .plain

theorem Edits.createFunction (callable : Callable) :
    C.Edits s t r (Movie.createFunction callable) (Movie.createFunction callable)
      fun r' o o' => r'.handle o o' :=
  .get fun hm => .create (.some hm.functionPrototype) _

theorem Edits.createDate (time : Number) :
    C.Edits s t r (Movie.createDate time) (Movie.createDate time)
      fun r' o o' => r'.handle o o' :=
  .get fun hm => .create (.some hm.datePrototype) _

/-- Linking paired constructors with paired prototypes keeps the movies alike. -/
theorem Edits.linkConstructor {c c' p p' : ObjectId} (hc : r.handle c c') (hp : r.handle p p') :
    C.Edits s t r (Movie.linkConstructor c p) (Movie.linkConstructor c' p')
      fun _ _ _ => True := by
  refine .bind (.define hc _ (.data (.object hp) _)) fun hle _ => ?_
  exact .define (hle.1 hp) _ (.data (.object (hle.1 hc)) _)

theorem Edits.createConstructor (callable : Callable) :
    C.Edits s t r (Movie.createConstructor callable) (Movie.createConstructor callable)
      fun r' o o' => r'.handle o o' := by
  refine .bind (.createFunction callable) fun _ hf => ?_
  refine .bind .createObject fun hle hp => ?_
  refine .bind (.linkConstructor (hle.1 hf) hp) fun hle' _ => ?_
  exact .pure (hle'.1 (hle.1 hf))

/-- Boxing alike primitives makes paired objects, or fails alike. -/
theorem Edits.box {v v' : Value} (hv : Value.Alike r v v') :
    C.Edits s t r (Movie.box v) (Movie.box v') fun r' => Result.Alike r' r'.handle := by
  refine .get fun {m m'} hm => ?_
  cases hv with
  | undefined => exact .pure (.error (.refl (by nofun)))
  | null => exact .pure (.error (.refl (by nofun)))
  | object ho => exact .pure (.ok ho)
  | bool => exact .bind (.create (.some hm.booleanPrototype) _) fun _ ho => .pure (.ok ho)
  | number => exact .bind (.create (.some hm.numberPrototype) _) fun _ ho => .pure (.ok ho)
  | string =>
    refine .bind (.create (.some hm.stringPrototype) _) fun _ ho => ?_
    exact .bind (.define ho _ (.data .number _)) fun hle _ => .pure (.ok (hle.1 ho))

/-! ## Registries -/

/-- Alike movies draw the same number. -/
theorem Edits.nextRandom :
    C.Edits s t r Movie.nextRandom Movie.nextRandom fun _ x x' => x = x' := by
  refine .replace (fun {m m'} hm => ?_) (fun _ => ⟨rfl, rfl⟩) fun _ => rfl
  have hrandom : Random.step m.random = Random.step m'.random := by rw [hm.random]
  exact ⟨{ hm with random := hrandom }, congrArg Random.value hrandom⟩

/-- Recording paired states for alike classes keeps the movies alike. -/
theorem Edits.recordStatic {key key' : ClassKey} {o o' : ObjectId}
    (hkey : ClassKey.Alike r key key') (ho : r.handle o o') :
    C.Edits s t r (Movie.recordStatic key o) (Movie.recordStatic key' o') fun _ _ _ => True := by
  refine .replace (fun hm => ⟨{ hm with staticStates := ?_ }, trivial⟩)
    (fun _ => ⟨rfl, rfl⟩) fun _ => rfl
  exact hm.staticStates.insert (ClassKey.alike_biUnique hm.handles) hkey ho

theorem Edits.registerClass (name : String) {o o' : ObjectId} (ho : r.handle o o') :
    C.Edits s t r (Movie.registerClass name o) (Movie.registerClass name o')
      fun _ b b' => b = b' := by
  have hassets : ∀ {m m'}, Movie.Alike r m m' →
      Movie.Alike r (Movie.registerClass name o m).2 (Movie.registerClass name o' m').2 ∧
        (Movie.registerClass name o m).1 = (Movie.registerClass name o' m').1 := by
    intro m m' hm
    simp only [Movie.registerClass, Assets.registerClass, hm.symbols]
    split
    · exact ⟨{ hm with symbols := rfl, classes := hm.classes.insert biUnique_eq rfl ho }, rfl⟩
    · exact ⟨hm, rfl⟩
  exact .replace hassets (fun _ => ⟨rfl, rfl⟩) fun _ => rfl

theorem Edits.pin {o o' : ObjectId} (ho : r.handle o o') :
    C.Edits s t r (Movie.pin o) (Movie.pin o') fun _ _ _ => True := by
  refine .replace (fun {m m'} hm => ⟨{ hm with pins := ?_ }, trivial⟩)
    (fun _ => ⟨rfl, rfl⟩) fun _ => rfl
  have hcount := optionRel_eq (hm.pins.find? hm.handles ho)
  exact hm.pins.insert hm.handles ho (by rw [hcount])

/-- Dropping the pin of paired objects keeps the pins alike. -/
theorem dropPin_alike (hr : Relator.BiUnique r.handle) {pins pins' : Table ObjectId Nat}
    (h : Table.Alike r.handle Eq pins pins') {o o' : ObjectId} (ho : r.handle o o') :
    Table.Alike r.handle Eq (Movie.dropPin pins o) (Movie.dropPin pins' o') := by
  rw [Movie.dropPin, Movie.dropPin, optionRel_eq (h.find? hr ho)]
  split
  · exact h
  · split
    · exact h.erase hr ho
    · exact h.insert hr ho rfl

theorem Edits.unpin {o o' : ObjectId} (ho : r.handle o o') :
    C.Edits s t r (Movie.unpin o) (Movie.unpin o') fun _ _ _ => True :=
  .replace (fun hm => ⟨{ hm with pins := dropPin_alike hm.handles hm.pins ho }, trivial⟩)
    (fun _ => ⟨rfl, rfl⟩) fun _ => rfl

/-! ## Classes of the embedder -/

theorem Edits.createMethod? (members : HostMembers) (name : String) :
    C.Edits s t r (Movie.createMethod? members name) (Movie.createMethod? members name)
      fun r' => Option.Rel r'.handle := by
  rw [Movie.createMethod?]
  split
  · exact .bind (.createFunction _) fun _ hf => .pure (.some hf)
  · exact .pure .none

/-- The values among the members stand for themselves. -/
def MembersKnown (r : Matching) (members : HostMembers) : Prop :=
  ∀ name v, members.find? name = some (.value v) → Value.Alike r v v

theorem MembersKnown.mono {r' : Matching} {members : HostMembers} (h : MembersKnown r members)
    (hle : r ≤ r') : MembersKnown r' members :=
  fun name v hv => (h name v hv).mono hle

theorem Edits.addAccessor {o o' : ObjectId} (ho : r.handle o o') (members : HostMembers)
    (base : String) :
    C.Edits s t r (Movie.addAccessor o members base) (Movie.addAccessor o' members base)
      fun _ _ _ => True := by
  refine .bind (.createMethod? members _) fun {_ getter getter'} hle hg => ?_
  refine .bind (.createMethod? members _) fun {_ setter setter'} hle' hs => ?_
  rw [optionRel_isSome hg, optionRel_isSome hs]
  split
  · exact .define (hle'.1 (hle.1 ho)) base (.accessor (optionRel_mono hle'.1 hg) hs _)
  · exact .pure trivial

/-- The same members are added to paired objects. -/
theorem Edits.addMembers {o o' : ObjectId} (ho : r.handle o o') {members : HostMembers}
    (hmembers : MembersKnown r members) (names : List String) :
    C.Edits s t r (Movie.addMembers o members names) (Movie.addMembers o' members names)
      fun _ _ _ => True := by
  refine .forM fun {r'} name hle => ?_
  have ho := hle.1 ho
  rw [Movie.addMember, Movie.addMember]
  split
  · exact .addAccessor ho members _
  · split
    · refine .bind (.createFunction _) fun hle' hf => ?_
      exact .define (hle'.1 ho) name (.data (.object hf) _)
    · exact .define ho name (.data (hmembers.mono hle _ _ ‹_›) _)
    · exact .pure trivial

/-- The same class added in both movies makes a paired constructor and prototype. -/
theorem Edits.addHostClass {spec : HostClassSpec} (hstatics : MembersKnown r spec.statics)
    (hmembers : MembersKnown r spec.members) :
    C.Edits s t r (Movie.addHostClass spec) (Movie.addHostClass spec)
      fun r' p p' => r'.handle p.1 p'.1 ∧ r'.handle p.2 p'.2 := by
  refine .bind (.createFunction _) fun {r₁ c c'} hle₁ hc => ?_
  refine .bind .createObject fun {r₂ p p'} hle₂ hp => ?_
  refine .bind (.linkConstructor (hle₂.1 hc) hp) fun {r₃ _ _} hle₃ _ => ?_
  have hle := hle₁.trans (hle₂.trans hle₃)
  have hc := hle₃.1 (hle₂.1 hc)
  have hp := hle₃.1 hp
  have hrest : ∀ {r'}, r₃ ≤ r' → C.Edits s t r'
      (do
        Movie.addMembers c spec.statics spec.staticNames
        Movie.addMembers p spec.members spec.memberNames
        return (c, p))
      (do
        Movie.addMembers c' spec.statics spec.staticNames
        Movie.addMembers p' spec.members spec.memberNames
        return (c', p'))
      fun r' p p' => r'.handle p.1 p'.1 ∧ r'.handle p.2 p'.2 := by
    intro r' hle'
    have hknown := hle.trans hle'
    refine .bind (.addMembers (hle'.1 hc) (hstatics.mono hknown) _) fun hle₄ _ => ?_
    refine .bind (.addMembers (hle₄.1 (hle'.1 hp)) (hmembers.mono (hknown.trans hle₄)) _)
      fun hle₅ _ => ?_
    exact .pure ⟨hle₅.1 (hle₄.1 (hle'.1 hc)), hle₅.1 (hle₄.1 (hle'.1 hp))⟩
  cases spec.initializer with
  | none => exact hrest (le_refl r₃)
  | some f =>
    have hinitializer : C.Edits s t r₃
        (fun m => ((), { m with initializers := m.initializers.insert c (.host f) }))
        (fun m => ((), { m with initializers := m.initializers.insert c' (.host f) }))
        fun _ _ _ => True := by
      refine .replace (fun hm => ⟨?_, trivial⟩) (fun _ => ⟨rfl, rfl⟩) fun _ => rfl
      exact { hm with initializers := hm.initializers.insert hm.handles hc rfl }
    exact .bind hinitializer fun hle' _ => hrest hle'

end Correspondence

end ActionScript
