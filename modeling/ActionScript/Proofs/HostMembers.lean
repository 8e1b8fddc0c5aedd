import ActionScript.Movie.HostClass
import ActionScript.Proofs.Command.Built
import ActionScript.Proofs.Watcher

/-! # Members of the embedder as properties

The members that an embedder has, out of a list of names, become the slots of a fresh object, hidden
and permanent, and a name that it has nothing for leaves no trace. Reads and writes of an accessor,
on the object or on an heir, are calls of the functions of the embedder
(`Movie.addMembers_faithful`). -/

namespace ActionScript

/-- The name of the property that a member becomes. -/
def propertyName (name : String) : String := (accessorBase? name).getD name

namespace HostMembers

variable (members : HostMembers)

/-- What the embedder answers reads of an accessor with. -/
def getter? (base : String) : Option HostFunction :=
  members.method? ("get" ++ Text.capitalize base)

/-- What the embedder passes writes of an accessor to. -/
def setter? (base : String) : Option HostFunction :=
  members.method? ("set" ++ Text.capitalize base)

/-- Whether the embedder has the member, or one direction of it if it is an accessor. -/
def implements (name : String) : Bool :=
  match accessorBase? name with
  | some base => (members.getter? base).isSome || (members.setter? base).isSome
  | none => (members.find? name).isSome

end HostMembers

theorem Edit.bind_apply {α β : Type} {x : Edit α} {m m₁ : Movie} {a : α} (h : x m = (a, m₁))
    (f : α → Edit β) : (x >>= f) m = f a m₁ := by
  show f (x m).1 (x m).2 = f a m₁
  rw [h]

namespace Movie

/-- The key of the property that a member becomes. -/
def memberKey (m : Movie) (name : String) : String := m.normalize (propertyName name)

/-- The object is a function of this name that runs the one of the embedder. -/
def Wraps (m : Movie) (name : String) (o : ObjectId) (f : HostFunction) : Prop :=
  m.heap.callable? o = some (.native name (.host f) none)

/-- The slot shows what the embedder has for a member, hidden and permanent. -/
inductive Shows (m : Movie) (members : HostMembers) (name : String) : Property → Prop
  | accessor : accessorBase? name = some base →
    Option.Rel (m.Wraps ("get" ++ Text.capitalize base)) getter (members.getter? base) →
    Option.Rel (m.Wraps ("set" ++ Text.capitalize base)) setter (members.setter? base) →
    Shows m members name (m.spelled base (.accessor getter setter .permanent))
  | method : accessorBase? name = none → members.find? name = some (.method f) →
    m.Wraps name function f →
    Shows m members name (m.spelled name (.data (.object function) .permanent))
  | value : accessorBase? name = none → members.find? name = some (.value v) →
    Shows m members name (m.spelled name (.data v .permanent))

variable {m m₁ m₂ : Movie} {o : ObjectId} {members : HostMembers} {name : String} {p : Property}

/-! ## One member -/

/-- A function wraps a host function in every movie grown from that one. -/
theorem GrowsTo.wraps (h : m.GrowsTo m₁) {function : ObjectId} {f : HostFunction}
    (hwraps : m.Wraps name function f) : m₁.Wraps name function f := by
  obtain ⟨x, hx, hcallable⟩ := Option.bind_eq_some_iff.mp hwraps
  exact Option.bind_eq_some_iff.mpr ⟨x, h.kept hx, hcallable⟩

section Creation

variable (ha : m.heap.Arena)
include ha

theorem arena_createWithPrototype (prototype : Option ObjectId) :
    (createWithPrototype prototype m).2.heap.Arena := ha.allocate _

theorem arena_createObject : (createObject m).2.heap.Arena := ha.allocate _

theorem createFunction_growsTo (callable : Callable) :
    m.GrowsTo (createFunction callable m).2 ∧ (createFunction callable m).2.heap.Arena ∧
      (createFunction callable m).2.heap.callable? (createFunction callable m).1 =
        some callable := by
  let object : Object :=
    { prototype := some m.intrinsics.functionPrototype, kind := .function callable }
  have hget : ∀ q, (createFunction callable m).2.heap.get? q =
      if q = (createFunction callable m).1 then some object else m.heap.get? q :=
    ha.get?_allocate object
  refine ⟨⟨rfl, fun {q y} hy => ?_⟩, ha.allocate object, ?_⟩
  · have hfresh : ¬ m.heap.isLive (createFunction callable m).1 := ha.not_isLive_allocate object
    rw [hget, if_neg]
    · exact hy
    · rintro rfl
      exact hfresh (Heap.isLive_of_get? hy)
  · rw [Heap.callable?, hget, if_pos rfl]
    rfl

/-- A method of the embedder, if there is one, gets a function object. -/
theorem createMethod?_wraps (members : HostMembers) (name : String) :
    ∃ function m₁, createMethod? members name m = (function, m₁) ∧ m.GrowsTo m₁ ∧
      m₁.heap.Arena ∧ Option.Rel (m₁.Wraps name) function (members.method? name) := by
  rw [createMethod?]
  cases members.method? name with
  | none => exact ⟨none, m, rfl, .refl m, ha, .none⟩
  | some f =>
    obtain ⟨hgrows, harena, hcallable⟩ := createFunction_growsTo ha (.native name (.host f) none)
    exact ⟨_, _, rfl, hgrows, harena, .some hcallable⟩

/-- An accessor gets a function object for each direction that the embedder has, and a slot unless
it has neither. -/
theorem addAccessor_cases (o : ObjectId) (members : HostMembers) (base : String) :
    ∃ m₁ getter setter, m.GrowsTo m₁ ∧ m₁.heap.Arena ∧
      Option.Rel (m₁.Wraps ("get" ++ Text.capitalize base)) getter (members.getter? base) ∧
      Option.Rel (m₁.Wraps ("set" ++ Text.capitalize base)) setter (members.setter? base) ∧
      addAccessor o members base m =
        (if getter.isSome || setter.isSome then
          define o base (.accessor getter setter .permanent)
        else pure () : Edit Unit) m₁ := by
  obtain ⟨getter, m₁, hcreate₁, hgrows₁, harena₁, hgetter⟩ :=
    createMethod?_wraps ha members ("get" ++ Text.capitalize base)
  obtain ⟨setter, m₂, hcreate₂, hgrows₂, harena₂, hsetter⟩ :=
    createMethod?_wraps harena₁ members ("set" ++ Text.capitalize base)
  refine ⟨m₂, getter, setter, hgrows₁.trans hgrows₂, harena₂,
    optionRel_mono hgrows₂.wraps hgetter, hsetter, ?_⟩
  rw [addAccessor, Edit.bind_apply hcreate₁, Edit.bind_apply hcreate₂]

/-- A member that the embedder has gets a slot, after the function objects that the slot names. -/
theorem addMember_of_implements (o : ObjectId) (himplements : members.implements name) :
    ∃ m₁ p, m.GrowsTo m₁ ∧ m₁.heap.Arena ∧ m₁.Shows members name p ∧
      (addMember o members name m).2 = m₁.reslot o (·.insert (m.memberKey name) p) := by
  rw [HostMembers.implements] at himplements
  rw [addMember, memberKey, propertyName]
  cases hname : accessorBase? name with
  | some base =>
    rw [hname] at himplements
    obtain ⟨m₁, getter, setter, hgrows, harena, hgetter, hsetter, hadd⟩ :=
      addAccessor_cases ha o members base
    have hsome : getter.isSome || setter.isSome := by
      rwa [optionRel_isSome hgetter, optionRel_isSome hsetter]
    refine ⟨m₁, _, hgrows, harena, .accessor hname hgetter hsetter, ?_⟩
    -- The slot is defined after the functions are made, under the same settings.
    dsimp only
    rw [hadd, if_pos hsome, normalize, ← hgrows.settings_eq]
    rfl
  | none =>
    rw [hname] at himplements
    obtain ⟨member, hmember⟩ := Option.isSome_iff_exists.mp himplements
    dsimp only
    rw [hmember]
    cases member with
    | method f =>
      obtain ⟨hgrows, harena, hcallable⟩ :=
        createFunction_growsTo ha (.native name (.host f) none)
      exact ⟨_, _, hgrows, harena, .method hname hmember hcallable, rfl⟩
    | value v => exact ⟨m, _, .refl m, ha, .value hname hmember, rfl⟩

omit ha in
/-- A member that the embedder does not have leaves the movie as it is. -/
theorem addMember_of_not_implements (himplements : members.implements name = false)
    (o : ObjectId) (m : Movie) : addMember o members name m = ((), m) := by
  rw [HostMembers.implements] at himplements
  rw [addMember]
  cases hname : accessorBase? name with
  | some base =>
    rw [hname, Bool.or_eq_false_iff, Option.isSome_eq_false_iff, Option.isSome_eq_false_iff,
      Option.isNone_iff_eq_none, Option.isNone_iff_eq_none] at himplements
    obtain ⟨hgetter, hsetter⟩ := himplements
    rw [HostMembers.getter?] at hgetter
    rw [HostMembers.setter?] at hsetter
    dsimp only
    rw [addAccessor, createMethod?, hgetter, createMethod?, hsetter]
    rfl
  | none =>
    rw [hname, Option.isSome_eq_false_iff, Option.isNone_iff_eq_none] at himplements
    dsimp only
    rw [himplements]
    rfl

end Creation

/-! ## All members -/

/-- Slots of an object may have changed and objects may have been added, and that is all. -/
structure Gains (m m' : Movie) (o : ObjectId) : Prop where
  otherwise : m' = { m with heap := m'.heap }
  others : ∀ {q y}, q ≠ o → m.heap.get? q = some y → m'.heap.get? q = some y
  object : ∀ {x}, m.heap.get? o = some x → ∃ t, m'.heap.get? o = some { x with properties := t }

namespace Gains

theorem refl (m : Movie) (o : ObjectId) : m.Gains m o := ⟨rfl, fun _ => id, fun hx => ⟨_, hx⟩⟩

theorem trans (h₁ : m.Gains m₁ o) (h₂ : m₁.Gains m₂ o) : m.Gains m₂ o := by
  refine ⟨?_, fun hq hy => h₂.others hq (h₁.others hq hy), fun {x} hx => ?_⟩
  · rw [h₂.otherwise, h₁.otherwise]
  · obtain ⟨t₁, hx₁⟩ := h₁.object hx
    obtain ⟨t₂, hx₂⟩ := h₂.object hx₁
    exact ⟨t₂, hx₂⟩

theorem settings_eq (h : m.Gains m₁ o) : m₁.settings = m.settings := by rw [h.otherwise]

theorem memberKey_eq (h : m.Gains m₁ o) (name : String) : m₁.memberKey name = m.memberKey name := by
  rw [memberKey, memberKey, normalize, normalize, h.settings_eq]

theorem isLive (h : m.Gains m₁ o) (hlive : m.heap.isLive o) : m₁.heap.isLive o := by
  obtain ⟨x, hx⟩ := Option.isSome_iff_exists.mp hlive
  obtain ⟨t, ht⟩ := h.object hx
  exact Heap.isLive_of_get? ht

theorem callable? (h : m.Gains m₁ o) {function : ObjectId} {c : Callable}
    (hc : m.heap.callable? function = some c) : m₁.heap.callable? function = some c := by
  obtain ⟨y, hy, hc⟩ := Option.bind_eq_some_iff.mp hc
  by_cases ho : function = o
  · subst ho
    obtain ⟨t, ht⟩ := h.object hy
    exact Option.bind_eq_some_iff.mpr ⟨_, ht, hc⟩
  · exact Option.bind_eq_some_iff.mpr ⟨y, h.others ho hy, hc⟩

/-- An object whose slots change in a grown movie is all that changes. -/
theorem reslot (h : m.GrowsTo m₁) (o : ObjectId)
    (g : Table String Property → Table String Property) : m.Gains (m₁.reslot o g) o := by
  refine ⟨?_, fun hq hy => ?_, fun {x} hx => ?_⟩
  · rw [h.otherwise]
    rfl
  · rw [get?_reslot, if_neg hq, h.kept hy]
  · rw [get?_reslot, if_pos rfl, h.kept hx]
    exact ⟨_, rfl⟩

end Gains

theorem references_spelled (m : Movie) (name : String) (p : Property) :
    (m.spelled name p).references = p.references := by
  rw [spelled]
  split <;> rfl

theorem rel_wraps_mono {function : Option ObjectId} {f : Option HostFunction}
    (hcallable : ∀ {o c}, o ∈ function → m.heap.callable? o = some c →
      m₁.heap.callable? o = some c) :
    Option.Rel (m.Wraps name) function f → Option.Rel (m₁.Wraps name) function f
  | .none => .none
  | .some hwraps => .some (hcallable rfl hwraps)

/-- What a slot shows depends on the settings and on the functions that it names. -/
theorem Shows.mono (h : m.Shows members name p) (hsettings : m₁.settings = m.settings)
    (hcallable : ∀ {o c}, o ∈ p.references → m.heap.callable? o = some c →
      m₁.heap.callable? o = some c) : m₁.Shows members name p := by
  have hspelled : ∀ name p, m.spelled name p = m₁.spelled name p := by
    intro name p
    rw [spelled, spelled, hsettings]
  cases h with
  | accessor hname hgetter hsetter =>
    rw [references_spelled] at hcallable
    rw [hspelled]
    refine .accessor hname (rel_wraps_mono (fun ho => hcallable ?_) hgetter)
      (rel_wraps_mono (fun ho => hcallable ?_) hsetter)
    · simp [Property.references, Property.accessor, Property.getter, Option.mem_def.mp ho]
    · simp [Property.references, Property.accessor, Property.setter, Option.mem_def.mp ho]
  | method hname hmember hwraps =>
    rw [references_spelled] at hcallable
    rw [hspelled]
    refine .method hname hmember (hcallable ?_ hwraps)
    simp [Property.references, Property.data, Value.object?]
  | value hname hmember =>
    rw [hspelled]
    exact .value hname hmember

/-- A slot goes on showing its member while the movie gains others. -/
theorem Gains.shows (h : m.Gains m₁ o) (hshows : m.Shows members name p) :
    m₁.Shows members name p :=
  hshows.mono h.settings_eq fun _ => h.callable?

/-- The members of a list have become slots of an object, after those that it had. -/
structure Clad (m m' : Movie) (o : ObjectId) (members : HostMembers) (names : List String) :
    Prop where
  gains : m.Gains m' o
  keys : m'.heap.keysOf o =
    m.heap.keysOf o ++ (names.filter members.implements).map m.memberKey
  kept : ∀ {key}, key ∈ m.heap.keysOf o → m'.heap.slot? o key = m.heap.slot? o key
  shown : ∀ {name}, name ∈ names → members.implements name →
    ∃ p, m'.heap.slot? o (m.memberKey name) = some p ∧ m'.Shows members name p

namespace Clad

theorem nil (m : Movie) (o : ObjectId) (members : HostMembers) : m.Clad m o members [] where
  gains := .refl m o
  keys := (List.append_nil _).symm
  kept _ := rfl
  shown hname := nomatch hname

/-- Members are added one by one, each to an object clad with those before. -/
theorem cons {names : List String} (h₁ : m.Clad m₁ o members [name])
    (h₂ : m₁.Clad m₂ o members names) : m.Clad m₂ o members (name :: names) where
  gains := h₁.gains.trans h₂.gains
  keys := by
    have hkeys : m₁.memberKey = m.memberKey := funext h₁.gains.memberKey_eq
    rw [h₂.keys, h₁.keys, hkeys, List.append_assoc, ← List.map_append, ← List.filter_append]
    rfl
  kept hkey := by
    have hkey₁ := h₁.keys ▸ List.mem_append_left _ hkey
    rw [h₂.kept hkey₁, h₁.kept hkey]
  shown {name'} hname himplements := by
    rcases List.mem_cons.mp hname with rfl | hname
    · obtain ⟨p, hslot, hshows⟩ := h₁.shown List.mem_cons_self himplements
      refine ⟨p, ?_, h₂.gains.shows hshows⟩
      rw [h₂.kept (Heap.mem_keysOf_of_slot? hslot), hslot]
    · rw [← h₁.gains.memberKey_eq]
      exact h₂.shown hname himplements

end Clad

/-- A step adds one member. -/
theorem clad_addMember (members : HostMembers) (ha : m.heap.Arena) (hlive : m.heap.isLive o)
    (hnew : m.memberKey name ∉ m.heap.keysOf o) :
    m.Clad (addMember o members name m).2 o members [name] ∧
      (addMember o members name m).2.heap.Arena := by
  cases himplements : members.implements name with
  | false =>
    rw [addMember_of_not_implements himplements]
    refine ⟨⟨.refl m o, ?_, fun _ => rfl, ?_⟩, ha⟩
    · rw [List.filter_cons_of_neg (Bool.eq_false_iff.mp himplements)]
      exact (List.append_nil _).symm
    · intro name' hname' himplements'
      cases List.mem_singleton.mp hname'
      exact absurd himplements' (Bool.eq_false_iff.mp himplements)
  | true =>
    obtain ⟨m₁, p, hgrows, harena, hshows, hadd⟩ := addMember_of_implements ha o himplements
    obtain ⟨x, hx⟩ := Option.isSome_iff_exists.mp hlive
    have hx₁ := hgrows.kept hx
    have hgains : m.Gains (m₁.reslot o (·.insert (m.memberKey name) p)) o := .reslot hgrows o _
    rw [hadd]
    refine ⟨⟨hgains, ?_, fun {key} hkey => ?_, fun {name'} hname' _ => ⟨p, ?_, ?_⟩⟩,
      harena.modify o _⟩
    · rw [Heap.keysOf_eq hx] at hnew
      rw [keysOf_reslot hx₁, Heap.keysOf_eq hx, Table.keys_insert_of_not_mem hnew,
        List.filter_cons_of_pos himplements]
      rfl
    · have hne : key ≠ m.memberKey name := by
        rintro rfl
        exact hnew hkey
      rw [slot?_reslot hx₁, Table.find?_insert, if_neg hne, Heap.slot?_eq hx]
    · cases List.mem_singleton.mp hname'
      rw [slot?_reslot hx₁, Table.find?_insert, if_pos rfl]
    · cases List.mem_singleton.mp hname'
      refine hshows.mono rfl fun _ hc => ?_
      rwa [callable?_reslot]

/-- A run adds all of them. -/
theorem clad_addMembers {names : List String} (ha : m.heap.Arena) (hlive : m.heap.isLive o)
    (hdistinct : (names.map m.memberKey).Nodup)
    (hnew : ∀ name ∈ names, m.memberKey name ∉ m.heap.keysOf o) :
    m.Clad (addMembers o members names m).2 o members names := by
  induction names generalizing m with
  | nil => exact .nil m o members
  | cons name names ih =>
    obtain ⟨hstep, harena⟩ := clad_addMember members ha hlive (hnew name List.mem_cons_self)
    obtain ⟨hhead, htail⟩ := List.nodup_cons.mp hdistinct
    have hkeys : (addMember o members name m).2.memberKey = m.memberKey :=
      funext hstep.gains.memberKey_eq
    -- The step takes the key of the first member, which no later member has.
    refine hstep.cons (ih harena ?_ ?_ ?_)
    · exact hstep.gains.isLive hlive
    · rwa [hkeys]
    · intro name' hname' hmem
      rw [hkeys, hstep.keys, List.mem_append] at hmem
      rcases hmem with hmem | hmem
      · exact hnew name' (List.mem_cons_of_mem _ hname') hmem
      · obtain ⟨_, hname, hkey⟩ := List.mem_map.mp hmem
        cases List.mem_singleton.mp (List.mem_filter.mp hname).1
        exact hhead (List.mem_map.mpr ⟨name', hname', hkey.symm⟩)

/-- On an object that had no slots, there is nothing but members of the embedder. -/
theorem Clad.shows_of_slot? {names : List String} (h : m.Clad m₁ o members names)
    (hfresh : m.heap.keysOf o = []) {key : String} (hslot : m₁.heap.slot? o key = some p) :
    ∃ name, m₁.Shows members name p := by
  have hmem := Heap.mem_keysOf_of_slot? hslot
  rw [h.keys, hfresh, List.nil_append] at hmem
  obtain ⟨name, hname, rfl⟩ := List.mem_map.mp hmem
  obtain ⟨hname, himplements⟩ := List.mem_filter.mp hname
  obtain ⟨q, hq, hshows⟩ := h.shown hname himplements
  rw [hslot] at hq
  cases hq
  exact ⟨name, hshows⟩

/-! ## What slots of members show -/

/-- A slot that shows a member is hidden and cannot be deleted. -/
theorem Shows.permanent (h : m.Shows members name p) : p.dontEnum ∧ p.dontDelete := by
  have hspelled : ∀ name p, (m.spelled name p).dontEnum = p.dontEnum ∧
      (m.spelled name p).dontDelete = p.dontDelete := by
    intro name p
    rw [spelled]
    split <;> exact ⟨rfl, rfl⟩
  cases h <;> exact ⟨(hspelled _ _).1, (hspelled _ _).2⟩

theorem Shows.access {base : String} (h : m.Shows members name p)
    (hname : accessorBase? name = some base) :
    p.watcher = none ∧ ∃ getter setter, p.access = .accessor getter setter ∧
      Option.Rel (m.Wraps ("get" ++ Text.capitalize base)) getter (members.getter? base) ∧
      Option.Rel (m.Wraps ("set" ++ Text.capitalize base)) setter (members.setter? base) := by
  cases h with
  | accessor hname' hgetter hsetter =>
    rw [hname] at hname'
    cases hname'
    rw [spelled]
    split <;> exact ⟨rfl, _, _, rfl, hgetter, hsetter⟩
  | method hname' =>
    rw [hname] at hname'
    cases hname'
  | value hname' =>
    rw [hname] at hname'
    cases hname'

theorem enumerable_eq_nil (h : ∀ {key p}, m.heap.slot? o key = some p → p.dontEnum) :
    m.enumerable o = [] := by
  rw [enumerable]
  cases hx : m.heap.get? o with
  | none => rfl
  | some x =>
    have hhidden : x.properties.entries.filter (fun e => e.2.isEnumerable) = [] := by
      rw [List.filter_eq_nil_iff]
      rintro ⟨key, p⟩ hentry
      have hslot : m.heap.slot? o key = some p := by
        rw [Heap.slot?_eq hx, Table.find?_eq_some_iff]
        exact hentry
      simp [Property.isEnumerable, h hslot]
    dsimp only
    rw [hhidden]
    rfl

/-- A later movie has the slots of an object, and the functions that they name, as they were. -/
structure KeepsSlots (m m' : Movie) (o : ObjectId) : Prop where
  settings : m'.settings = m.settings
  slots : ∀ key, m'.heap.slot? o key = m.heap.slot? o key
  functions : ∀ {key p f c}, m.heap.slot? o key = some p → f ∈ p.references →
    m.heap.callable? f = some c → m'.heap.callable? f = some c

theorem KeepsSlots.refl (m : Movie) (o : ObjectId) : m.KeepsSlots m o :=
  ⟨rfl, fun _ => rfl, fun _ _ => id⟩

end Movie

/-! ## Members on a machine -/

theorem Run.discard_congr {σ α : Type} {x y : Run σ α} {s t : State σ} (h : x s = y t) :
    discard x s = discard y t := by
  have hbind : ∀ (x : Run σ α) s, discard x s =
      ExceptT.bindCont (fun _ => (pure () : Run σ Unit)) (x s).1 (x s).2 := fun _ _ => rfl
  rw [hbind, hbind, h]

namespace Machine

variable {σ : Type} [Journal σ] (machine : Machine σ) {s : State σ} {o q : ObjectId}
  {members : HostMembers} {name base spelling : String} {p : Property}

/-- Calling a function that wraps a host function asks the host. -/
theorem call_of_wraps {function : ObjectId} {f : HostFunction}
    (h : s.movie.Wraps name function f) (this : Value) (args : List Value) :
    machine.call function this args s = machine.services.function f this args (s.looked 1) := by
  rw [Movie.Wraps] at h
  rw [call, Run.look_apply, h]
  rfl

/-- A permanent slot refuses to be deleted. -/
theorem delete_of_permanent (hslot : s.movie.heap.slot? o (s.movie.normalize spelling) = some p)
    (hp : p.dontDelete) : machine.delete o spelling s = (false, s.looked 2) := by
  rw [delete, Update.look_apply, deleteKey, Update.look_apply, State.movie_looked, Heap.own?, hslot]
  dsimp only
  rw [Property.isDeletable, hp, Bool.not_true, if_neg Bool.false_ne_true]
  rfl

/-- A read of an accessor is a call of the getter of the embedder. -/
theorem read_of_shows (hshows : s.movie.Shows members name p)
    (hname : accessorBase? name = some base)
    (hp : s.movie.heap.Nearest (s.movie.normalize spelling) q o p) :
    machine.read q spelling s =
      match members.getter? base with
      | some f => machine.services.function f (.object q) [] (s.looked 3)
      | none => (.ok .undefined, s.looked 2) := by
  obtain ⟨_, getter, setter, haccess, hgetter, _⟩ := hshows.access hname
  rw [read, Run.look_apply, machine.readKey_of_nearest (s := s.looked 1) hp, slotValue, haccess]
  rcases optionRel_cases hgetter with ⟨function, f, rfl, hf, hwraps⟩ | ⟨rfl, hf⟩
  · rw [hf]
    exact machine.call_of_wraps (s := s.looked 2) hwraps (.object q) []
  · rw [hf]
    rfl

/-- A write of an accessor is a call of the setter of the embedder. -/
theorem write_of_shows (hshows : s.movie.Shows members name p)
    (hname : accessorBase? name = some base)
    (hp : s.movie.heap.Nearest (s.movie.normalize spelling) q o p)
    (hproto : s.movie.normalize spelling ≠ Heap.protoKey) {v : Value}
    (hkept : v.isUndefined → s.movie.normalize spelling ∉ geometryKeys) :
    machine.write q spelling v s =
      match members.setter? base with
      | some f => discard (machine.services.function f (.object q) [v]) (s.looked 3)
      | none => (.ok (), s.looked 2) := by
  obtain ⟨hwatcher, getter, setter, haccess, _, hsetter⟩ := hshows.access hname
  have hput : s.movie.canPut q spelling = setter.isSome := by
    rw [Movie.canPut, Heap.canPut_of_nearest hp, Property.isWritable, haccess]
  rcases optionRel_cases hsetter with ⟨function, f, rfl, hf, hwraps⟩ | ⟨rfl, hf⟩
  · have hignores : ignores s.movie q (s.movie.normalize spelling) v = false := by
      rw [ignores, Bool.and_assoc, Bool.and_eq_false_imp]
      intro hv
      rw [Bool.and_eq_false_imp]
      intro hgeometry
      exact absurd (List.contains_iff_mem.mp hgeometry) (hkept hv)
    have hfound : s.movie.find? q spelling = some p := Movie.find?_eq_some_iff.mpr ⟨o, hp⟩
    have haccessor : p.isAccessor := by
      rw [Property.isAccessor, Property.isData, haccess]
      rfl
    have hthrough : machine.writeThrough q p v =
        discard (machine.call function (.object q) [v]) := by
      rw [writeThrough, hwatcher, Property.setter, haccess]
      exact pure_bind _ _
    rw [machine.write_through hproto hput hignores hfound haccessor, hthrough, hf]
    exact Run.discard_congr (machine.call_of_wraps (s := s.looked 2) hwraps (.object q) [v])
  · rw [write_apply, hf]
    exact machine.writeKey_refused (s := s.looked 1) hput spelling v

/-- On a machine, a member of the embedder answers for a key of an object. -/
structure Serves (machine : Machine σ) (s : State σ) (o : ObjectId) (members : HostMembers)
    (name key : String) : Prop where
  delete : ∀ {spelling}, s.movie.normalize spelling = key →
    machine.delete o spelling s = (false, s.looked 2)
  /-- The getter of an accessor is called on the object that was asked, be it an heir. -/
  read : ∀ {base spelling q p}, accessorBase? name = some base →
    s.movie.normalize spelling = key → s.movie.heap.Nearest key q o p →
    machine.read q spelling s =
      match members.getter? base with
      | some f => machine.services.function f (.object q) [] (s.looked 3)
      | none => (.ok .undefined, s.looked 2)
  /-- So is the setter. -/
  write : ∀ {base spelling q p}, accessorBase? name = some base →
    s.movie.normalize spelling = key → s.movie.heap.Nearest key q o p →
    ∀ v : Value, (v.isUndefined → key ∉ geometryKeys) →
    machine.write q spelling v s =
      match members.setter? base with
      | some f => discard (machine.services.function f (.object q) [v]) (s.looked 3)
      | none => (.ok (), s.looked 2)

/-- A slot that shows a member serves it through the machine. -/
theorem serves_of_shows {key : String} (hslot : s.movie.heap.slot? o key = some p)
    (hshows : s.movie.Shows members name p) (hproto : key ≠ Heap.protoKey) :
    machine.Serves s o members name key where
  delete hkey := machine.delete_of_permanent (hkey ▸ hslot) hshows.permanent.2
  read hname hkey hp := by
    cases hp.eq_of_slot? hslot
    subst hkey
    exact machine.read_of_shows hshows hname hp
  write hname hkey hp v hkept := by
    cases hp.eq_of_slot? hslot
    subst hkey
    exact machine.write_of_shows hshows hname hp hproto hkept

end Machine

namespace Movie

variable {m : Movie} {o : ObjectId}

/-- Adding members of an embedder to a fresh object gives it one slot for each member that the
embedder has, in their order, and changes no other object; a name that the embedder does not have
changes nothing. As long as they are there, the slots are hidden and stay, and on every machine
their accessors are the functions of the embedder. -/
theorem addMembers_faithful (ha : m.heap.Arena) (hlive : m.heap.isLive o)
    (hfresh : m.heap.keysOf o = []) (members : HostMembers) {names : List String}
    (hdistinct : (names.map m.memberKey).Nodup)
    (hproto : ∀ name ∈ names, m.memberKey name ≠ Heap.protoKey) :
    ∃ m', addMembers o members names m = ((), m') ∧ m.Gains m' o ∧
      m'.heap.keysOf o = (names.filter members.implements).map m.memberKey ∧
      (∀ name ∈ names, members.implements name →
        ∃ p, m'.heap.slot? o (m.memberKey name) = some p ∧ m'.Shows members name p) ∧
      (∀ name, members.implements name = false → ∀ m₀, addMember o members name m₀ = ((), m₀)) ∧
      ∀ (σ : Type) [Journal σ] (machine : Machine σ) (s : State σ), m'.KeepsSlots s.movie o →
        s.movie.enumerable o = [] ∧
        ∀ name ∈ names, members.implements name →
          machine.Serves s o members name (m.memberKey name) := by
  have hclad : m.Clad (addMembers o members names m).2 o members names := by
    refine clad_addMembers ha hlive hdistinct fun name _ => ?_
    rw [hfresh]
    exact List.not_mem_nil
  refine ⟨(addMembers o members names m).2, rfl, hclad.gains, ?_, fun name => hclad.shown,
    fun name himplements => addMember_of_not_implements himplements o,
    fun σ _ machine s hkeeps => ⟨?_, fun name hname himplements => ?_⟩⟩
  · rw [hclad.keys, hfresh, List.nil_append]
  · refine enumerable_eq_nil fun {key p} hslot => ?_
    rw [hkeeps.slots] at hslot
    obtain ⟨name, hshows⟩ := hclad.shows_of_slot? hfresh hslot
    exact hshows.permanent.1
  · obtain ⟨p, hslot, hshows⟩ := hclad.shown hname himplements
    have hlater : s.movie.heap.slot? o (m.memberKey name) = some p := by
      rw [hkeeps.slots, hslot]
    exact machine.serves_of_shows hlater
      (hshows.mono hkeeps.settings (hkeeps.functions hslot)) (hproto name hname)

namespace Player

/-- An embedder whose functions give back the object that they are called on. -/
def host : Host Unit := fun _ => { Host.refuse with function := fun _ this _ => return this }

/-- A volume that can be read but not set, and a method. -/
def members : HostMembers :=
  (Table.empty.insert "getVolume" (.method ⟨0⟩)).insert "play" (.method ⟨1⟩)

def names : List String := ["Volume#", "pan#", "play"]

@[irreducible] def object : ObjectId := (createObject (Movie.new { version := 6 })).1

@[irreducible] def heir : ObjectId :=
  (createWithPrototype (some object) (createObject (Movie.new { version := 6 })).2).1

/-- A movie with an object and an heir of it, in which case does not count. -/
@[irreducible] def movie : Movie :=
  (createWithPrototype (some object) (createObject (Movie.new { version := 6 })).2).2

theorem arena_movie : movie.heap.Arena := by
  rw [movie]
  exact arena_createWithPrototype (arena_createObject (Session.reached_new _).arena) _

end Player

open Player in
/-- There is no slot for the member that the embedder does not have. The heir is asked for its
volume as itself, and a write of the volume has no effect. -/
theorem addMembers_player :
    ∃ m', addMembers object members names movie = ((), m') ∧
      m'.heap.keysOf object = ["volume", "play"] ∧ m'.enumerable object = [] ∧
      (host.machine 1).delete object "PLAY" ⟨m', ()⟩ = (false, ⟨m', ()⟩) ∧
      (host.machine 1).read heir "volume" ⟨m', ()⟩ = (.ok (.object heir), ⟨m', ()⟩) ∧
      (host.machine 1).write heir "VOLUME" .null ⟨m', ()⟩ = (.ok (), ⟨m', ()⟩) := by
  have hlive : movie.heap.isLive object := by decide +kernel
  have hfresh : movie.heap.keysOf object = [] := by decide +kernel
  have hkeys : names.map movie.memberKey = ["volume", "pan", "play"] := by decide +kernel
  have hdistinct : (names.map movie.memberKey).Nodup := by
    rw [hkeys]
    decide
  have hproto : ∀ name ∈ names, movie.memberKey name ≠ Heap.protoKey := by
    rw [← List.forall_mem_map (P := (· ≠ Heap.protoKey)), hkeys]
    decide
  obtain ⟨m', hadd, -, hslots, -, -, hlaw⟩ :=
    addMembers_faithful arena_movie hlive hfresh members hdistinct hproto
  obtain ⟨hhidden, hserves⟩ := hlaw Unit (host.machine 1) ⟨m', ()⟩ (.refl m' object)
  have hm' : m' = (addMembers object members names movie).2 := by rw [hadd]
  have hvolume := hserves "Volume#" (by decide) (by decide +kernel)
  have hplay := hserves "play" (by decide) (by decide +kernel)
  have hbase : accessorBase? "Volume#" = some "Volume" := by decide +kernel
  have howner : (m'.heap.find? heir (movie.memberKey "Volume#")).map Prod.fst = some object := by
    rw [hm']
    decide +kernel
  obtain ⟨⟨owner, p⟩, hfind, howner⟩ := Option.map_eq_some_iff.mp howner
  cases howner
  have hnearest := Heap.find?_eq_some_iff.mp hfind
  have hlower : m'.normalize "volume" = movie.memberKey "Volume#" := by
    rw [hm']
    decide +kernel
  have hupper : m'.normalize "VOLUME" = movie.memberKey "Volume#" := by
    rw [hm']
    decide +kernel
  have hread := hvolume.read hbase hlower hnearest
  have hwrite := hvolume.write hbase hupper hnearest .null nofun
  have hgetter : members.getter? "Volume" = some ⟨0⟩ := by decide +kernel
  have hsetter : members.setter? "Volume" = none := by decide +kernel
  rw [hgetter] at hread
  rw [hsetter] at hwrite
  have hplayKey : m'.normalize "PLAY" = movie.memberKey "play" := by
    rw [hm']
    decide +kernel
  refine ⟨m', hadd, ?_, hhidden, hplay.delete hplayKey, hread, hwrite⟩
  rw [hslots]
  decide +kernel

end Movie

end ActionScript
