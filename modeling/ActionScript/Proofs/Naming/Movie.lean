import ActionScript.Proofs.ArrayLength
import ActionScript.Proofs.Command.Start
import ActionScript.Proofs.LowerCase

/-! # Names that lead back

Enumeration shows a slot by its key where case counts and else by its spelling. A movie is tidy if
the name that is shown for a slot always leads back to the slot, and no slot is watched
(`Movie.Tidy`). The edits of the built-in routines leave a movie tidy. They leave a slot the name it
has, and show what they add by its key (`Movie.KeepsTidy`). The elements of arrays may come and go,
but a numeral is its own name all the same: no other one leads to it
(`Settings.eq_of_normalize`). -/

namespace ActionScript

/-! ## Numerals -/

/-- A text of digits. -/
def IsNumeral (key : String) : Prop := ∀ c ∈ key.toList, c.isDigit

/-- The key of an index is a numeral. -/
theorem isNumeral_indexKey (i : Nat) : IsNumeral (indexKey i) := by
  intro c hc
  rw [toList_indexKey] at hc
  exact Nat.isDigit_of_mem_toDigits (by decide) (by decide) hc

/-- A key that is read as an index is a numeral. -/
theorem isNumeral_of_arrayIndex? {key : String} {i : Nat} (h : arrayIndex? key = some i) :
    IsNumeral key := by
  rw [arrayIndex?] at h
  dsimp only at h
  split at h
  · cases h
  · rename_i hshape
    intro c hc
    simp only [Bool.or_eq_true, not_or, Bool.not_eq_true', Bool.not_eq_false,
      List.all_eq_true] at hshape
    rw [← Number.isDigit_eq]
    exact hshape.2 c hc

/-- Numerals have no letters to fold. -/
theorem Text.lower_of_isNumeral {key : String} (hkey : IsNumeral key) : Text.lower key = key :=
  Text.lower_of_isLower fun c hc => Text.isLower_of_isDigit (hkey c hc)

namespace Settings

/-- A numeral is its own normal form under any settings. -/
theorem normalize_of_isNumeral (s : Settings) {key : String} (hkey : IsNumeral key) :
    s.normalize key = key :=
  normalize_of_lower (Text.lower_of_isNumeral hkey) s

/-- Only a numeral leads to a numeral. -/
theorem eq_of_normalize (s : Settings) {name key : String} (hname : s.normalize name = key)
    (hkey : IsNumeral key) : name = key := by
  subst hname
  rw [normalize] at hkey ⊢
  split at hkey
  · rename_i hcase
    rw [if_pos hcase]
  · rename_i hcase
    rw [if_neg hcase]
    exact (Text.lower_eq_of_isDigit hkey).symm

end Settings

/-! ## Tidy movies -/

/-- The slots of an object that was changed are those of the changed object, all others stay. -/
theorem Heap.slot?_modify (h : Heap) (o p : ObjectId) (f : Object → Object) (key : String) :
    (h.modify o f).slot? p key =
      if p = o then (h.get? p).bind fun x => (f x).properties.find? key else h.slot? p key := by
  rw [slot?, get?_modify]
  split
  · rw [Option.bind_map]
    rfl
  · rfl

namespace Property

/-- The slot is as it was made (`Property.data`, `Property.accessor`): it has neither a spelling nor
a watcher yet. -/
def Fresh (p : Property) : Prop := p.spelling = none ∧ p.watcher = none

instance (p : Property) : Decidable p.Fresh := inferInstanceAs (Decidable (_ ∧ _))

/-- A data property as it is made has neither a spelling nor a watcher. -/
theorem fresh_data (v : Value) (flags : Flags) : (data v flags).Fresh := ⟨rfl, rfl⟩

/-- The slot is spelled like another one, and is watched only if that one is. -/
structure Renews (p q : Property) : Prop where
  spelling : p.spelling = q.spelling
  watcher : q.watcher = none → p.watcher = none

theorem Renews.refl (p : Property) : p.Renews p := ⟨rfl, id⟩

end Property

namespace Movie

variable {m n k : Movie} {o : ObjectId} {key name : String} {p : Property}

/-- The name that is shown for the slot leads to its key, and it is not watched. -/
structure Suits (m : Movie) (key : String) (p : Property) : Prop where
  named : m.normalize (m.shownName key p) = key
  unwatched : p.watcher = none

structure Tidy (m : Movie) : Prop where
  arena : m.heap.Arena
  suits : ∀ {o key p}, m.heap.slot? o key = some p → m.Suits key p

/-- The shown name depends on the settings and the spelling alone. -/
theorem shownName_congr {q : Property} (hsettings : n.settings = m.settings)
    (hspelling : q.spelling = p.spelling) : n.shownName key q = m.shownName key p := by
  rw [shownName, shownName, hsettings, hspelling]

theorem Suits.of_settings (h : m.Suits key p) (hsettings : n.settings = m.settings) :
    n.Suits key p := by
  refine ⟨?_, h.unwatched⟩
  rw [normalize, shownName_congr hsettings rfl, hsettings]
  exact h.named

/-- A property that keeps its spelling goes on suiting its key. -/
theorem Suits.of_renews (h : m.Suits key p) {q : Property} (hq : q.Renews p) : m.Suits key q := by
  refine ⟨?_, hq.watcher h.unwatched⟩
  rw [shownName_congr rfl hq.spelling]
  exact h.named

/-- A slot without a spelling is shown by its key. -/
theorem shownName_of_fresh (hp : p.Fresh) : m.shownName key p = key := by
  rw [shownName, hp.1, Option.getD_none, ite_self]

/-- A slot that is stored anew is shown by the name it is stored under. -/
theorem shownName_spelled (hname : m.normalize name = key) (hp : p.Fresh) :
    m.shownName key (m.spelled name p) = name := by
  rw [shownName, spelled]
  cases hcase : m.settings.caseSensitive with
  | true =>
    rw [normalize, Settings.normalize, if_pos hcase] at hname
    exact hname.symm
  | false =>
    rw [if_neg Bool.false_ne_true, if_neg Bool.false_ne_true, hp.1]
    rfl

/-- A slot spelled by a name suits the normal form of that name. -/
theorem suits_spelled (hname : m.normalize name = key) (hp : p.Fresh) :
    m.Suits key (m.spelled name p) := by
  refine ⟨?_, ?_⟩
  · rw [shownName_spelled hname hp, hname]
  · rw [spelled]
    split <;> exact hp.2

/-- Storing a slot gives its object that slot, spelled by the name, and leaves all others. -/
theorem slot?_storeAs (m : Movie) (o o' : ObjectId) (key key' name : String) (p : Property) :
    (storeAs o key name p m).2.heap.slot? o' key' =
      if o' = o ∧ key' = key ∧ m.heap.isLive o' then some (m.spelled name p)
      else m.heap.slot? o' key' :=
  m.heap.slot?_store o o' key key' _

/-- A slot may be stored under every name that leads to its key. -/
theorem Tidy.store (hm : m.Tidy) (hname : m.normalize name = key) (hp : p.Fresh) :
    (storeAs o key name p m).2.Tidy := by
  refine ⟨hm.arena.modify _ _, fun {o' key' q} hq => ?_⟩
  rw [slot?_storeAs] at hq
  split at hq
  · rename_i hsame
    cases hq
    rw [hsame.2.1]
    exact (suits_spelled hname hp).of_settings rfl
  · exact (hm.suits hq).of_settings rfl

/-- The name that is shown for a slot; the key where there is none. -/
def nameOf (m : Movie) (o : ObjectId) (key : String) : String :=
  ((m.heap.slot? o key).map (m.shownName key)).getD key

theorem nameOf_of_some (hp : m.heap.slot? o key = some p) : m.nameOf o key = m.shownName key p := by
  rw [nameOf, hp]
  rfl

theorem nameOf_of_none (hnone : m.heap.slot? o key = none) : m.nameOf o key = key := by
  rw [nameOf, hnone]
  rfl

/-- Storing a slot gives it the name it is stored under, and leaves the names of all others. -/
theorem nameOf_storeAs (hname : m.normalize name = key) (hp : p.Fresh) (o' : ObjectId)
    (key' : String) : (storeAs o key name p m).2.nameOf o' key' =
      if o' = o ∧ key' = key ∧ m.heap.isLive o' then name else m.nameOf o' key' := by
  rw [nameOf, slot?_storeAs]
  split
  · rename_i hsame
    rw [hsame.2.1]
    exact shownName_spelled hname hp
  · rfl

/-- In a tidy movie a numeral is its own name. -/
theorem Tidy.nameOf_of_isNumeral (hm : m.Tidy) (hkey : IsNumeral key) : m.nameOf o key = key := by
  cases hp : m.heap.slot? o key with
  | none => exact nameOf_of_none hp
  | some p =>
    rw [nameOf_of_some hp]
    exact m.settings.eq_of_normalize (hm.suits hp).named hkey

/-- The nearest slot is not watched either, be it a slot or the prototype link. -/
theorem Tidy.watcher_of_find? (hm : m.Tidy) {owner : ObjectId}
    (hfound : m.heap.find? o key = some (owner, p)) : p.watcher = none := by
  obtain ⟨q, _, hq⟩ := List.exists_of_findSome?_eq_some hfound
  obtain ⟨p', hown, heq⟩ := Option.map_eq_some_iff.mp hq
  cases heq
  rw [Heap.own?] at hown
  split at hown
  · rename_i hslot
    cases hown
    exact (hm.suits hslot).unwatched
  · split at hown
    · obtain ⟨_, _, rfl⟩ := Option.map_eq_some_iff.mp hown
      rfl
    · cases hown

theorem slot?_setPrototype (m : Movie) (o : ObjectId) (prototype : Option ObjectId) (o' : ObjectId)
    (key : String) : (setPrototype o prototype m).2.heap.slot? o' key = m.heap.slot? o' key := by
  have hheap : (setPrototype o prototype m).2.heap = (m.heap.setPrototype o prototype).2 := rfl
  rw [hheap, Heap.setPrototype]
  split
  · rfl
  · rw [Heap.slot?_modify]
    split <;> rfl

/-! ## Later movies -/

/-- What the later movie shows of the earlier one: its objects and its slots, and other slots by
their keys. -/
structure KeepsNames (m n : Movie) : Prop where
  settings : n.settings = m.settings
  live : ∀ {o}, m.heap.isLive o → n.heap.isLive o
  slots : ∀ {o key p}, ¬ IsNumeral key → m.heap.slot? o key = some p →
    ∃ q, n.heap.slot? o key = some q ∧ q.spelling = p.spelling
  added : ∀ {o key q}, m.heap.slot? o key = none → n.heap.slot? o key = some q →
    n.shownName key q = key

/-- The later movie is tidy and has the names of the earlier one, if that one is tidy. -/
structure KeepsTidy (m n : Movie) : Prop where
  tidy : m.Tidy → n.Tidy
  names : m.Tidy → m.KeepsNames n

namespace KeepsTidy

theorem of_tidy (h : m.Tidy → m.KeepsTidy n) : m.KeepsTidy n :=
  ⟨fun hm => (h hm).tidy hm, fun hm => (h hm).names hm⟩

/-- A slot of the later movie is shown as in the earlier one. -/
theorem nameOf_eq (h : m.KeepsTidy n) (hm : m.Tidy) {q : Property}
    (hq : n.heap.slot? o key = some q) : n.nameOf o key = m.nameOf o key := by
  have hnames := h.names hm
  by_cases hkey : IsNumeral key
  · rw [hm.nameOf_of_isNumeral hkey, (h.tidy hm).nameOf_of_isNumeral hkey]
  · cases hp : m.heap.slot? o key with
    | none => rw [nameOf_of_none hp, nameOf_of_some hq, hnames.added hp hq]
    | some p =>
      obtain ⟨q, hq, hspelling⟩ := hnames.slots hkey hp
      rw [nameOf_of_some hp, nameOf_of_some hq, shownName_congr hnames.settings hspelling]

theorem refl (m : Movie) : m.KeepsTidy m := by
  refine ⟨id, fun _ => ⟨rfl, id, fun _ hp => ⟨_, hp, rfl⟩, fun hnone hq => ?_⟩⟩
  rw [hnone] at hq
  cases hq

theorem trans (h : m.KeepsTidy n) (h' : n.KeepsTidy k) : m.KeepsTidy k where
  tidy hm := h'.tidy (h.tidy hm)
  names hm := by
    have hmn := h.names hm
    have hnk := h'.names (h.tidy hm)
    refine ⟨hnk.settings.trans hmn.settings, fun ho => hnk.live (hmn.live ho), fun hkey hp => ?_,
      fun {o key q} hnone hq => ?_⟩
    · obtain ⟨q, hq, hspelling⟩ := hmn.slots hkey hp
      obtain ⟨r, hr, hspelling'⟩ := hnk.slots hkey hq
      exact ⟨r, hr, hspelling'.trans hspelling⟩
    · rw [← nameOf_of_some hq, h'.nameOf_eq (h.tidy hm) hq]
      cases hp : n.heap.slot? o key with
      | none => exact nameOf_of_none hp
      | some p =>
        rw [nameOf_of_some hp]
        exact hmn.added hnone hp

/-- A movie with the same heap and settings is as tidy. -/
theorem of_heap_eq (hsettings : n.settings = m.settings) (hheap : n.heap = m.heap) :
    m.KeepsTidy n where
  tidy hm := ⟨hheap ▸ hm.arena, fun hp => (hm.suits (hheap ▸ hp)).of_settings hsettings⟩
  names _ := by
    refine ⟨hsettings, fun ho => hheap ▸ ho, fun _ hp => ⟨_, hheap ▸ hp, rfl⟩, fun hnone hq => ?_⟩
    rw [hheap, hnone] at hq
    cases hq

/-! ## Changes of one object -/

/-- A change of an object that adds no slots, and drops numerals at most. -/
theorem modify {f : Object → Object}
    (hold : ∀ {x key q}, (f x).properties.find? key = some q →
      ∃ p, x.properties.find? key = some p ∧ q.Renews p)
    (hkeeps : ∀ {x key}, ¬ IsNumeral key → (x.properties.find? key).isSome →
      ((f x).properties.find? key).isSome) :
    m.KeepsTidy { m with heap := m.heap.modify o f } := by
  have hback : ∀ {o' key q}, (m.heap.modify o f).slot? o' key = some q →
      ∃ p, m.heap.slot? o' key = some p ∧ q.Renews p := by
    intro o' key q hq
    rw [Heap.slot?_modify] at hq
    split at hq
    · obtain ⟨x, hx, hq⟩ := Option.bind_eq_some_iff.mp hq
      rw [Heap.slot?_eq hx]
      exact hold hq
    · exact ⟨q, hq, .refl q⟩
  constructor
  · intro hm
    refine ⟨hm.arena.modify o f, fun hq => ?_⟩
    obtain ⟨p, hp, hrenews⟩ := hback hq
    exact ((hm.suits hp).of_renews hrenews).of_settings rfl
  · intro _
    refine ⟨rfl, fun ho => (m.heap.isLive_modify o _ f).trans ho, fun {o' key p} hkey hp => ?_,
      fun hnone hq => ?_⟩
    · have hsome : ((m.heap.modify o f).slot? o' key).isSome := by
        rw [Heap.slot?_modify]
        split
        · obtain ⟨x, hx, hp⟩ := Option.bind_eq_some_iff.mp hp
          rw [hx]
          exact hkeeps hkey (Option.isSome_iff_exists.mpr ⟨p, hp⟩)
        · exact Option.isSome_iff_exists.mpr ⟨p, hp⟩
      obtain ⟨q, hq⟩ := Option.isSome_iff_exists.mp hsome
      obtain ⟨p', hp', hrenews⟩ := hback hq
      cases hp.symm.trans hp'
      exact ⟨q, hq, hrenews.spelling⟩
    · obtain ⟨p, hp, _⟩ := hback hq
      rw [hnone] at hp
      cases hp

/-- Renewing the property of a slot keeps a movie tidy. -/
theorem modifySlot {f : Property → Property} (hf : ∀ p, (f p).Renews p) :
    m.KeepsTidy { m with heap := m.heap.modifySlot o key f } := by
  refine .modify (fun {x key' q} hq => ?_) fun {x key'} _ hsome => ?_
  · rw [Table.find?_modify] at hq
    split at hq
    · obtain ⟨p, hp, rfl⟩ := Option.map_eq_some_iff.mp hq
      exact ⟨p, hp, hf p⟩
    · exact ⟨q, hq, .refl q⟩
  · rw [Table.find?_modify]
    split
    · rwa [Option.isSome_map]
    · exact hsome

/-- Taking numerals out of an object keeps a movie tidy. -/
theorem eraseWhere {cut : String → Bool} (hcut : ∀ {key}, cut key → IsNumeral key) :
    m.KeepsTidy { m with
      heap := m.heap.modify o fun x => { x with properties := x.properties.eraseWhere cut } } := by
  refine .modify (fun {x key' q} hq => ?_) fun {x key'} hkey hsome => ?_
  · rw [Table.find?_eraseWhere] at hq
    split at hq
    · cases hq
    · exact ⟨q, hq, .refl q⟩
  · rwa [Table.find?_eraseWhere, if_neg fun h => hkey (hcut h)]

theorem remove (hkey : IsNumeral key) : m.KeepsTidy { m with heap := m.heap.remove o key } := by
  have hremove : m.heap.remove o key = m.heap.modify o fun x =>
      { x with properties := x.properties.eraseWhere fun k => k = key } := by
    simp only [Heap.remove, Table.erase_eq_eraseWhere]
  rw [hremove]
  refine .eraseWhere fun h => ?_
  rwa [of_decide_eq_true h]

/-- A slot is stored under its key that was missing earlier. -/
theorem store (h : m.KeepsTidy n) (hnone : m.Tidy → m.heap.slot? o key = none)
    (hkey : n.normalize key = key) (hp : p.Fresh) : m.KeepsTidy (storeAs o key key p n).2 := by
  refine ⟨fun hm => (h.tidy hm).store hkey hp, fun hm => ?_⟩
  have hnames := h.names hm
  refine ⟨hnames.settings, fun ho => (n.heap.isLive_modify _ _ _).trans (hnames.live ho),
    fun {o' key' q} hnumeral hq => ?_, fun {o' key' q} hmissing hq => ?_⟩
  · rw [slot?_storeAs, if_neg]
    · exact hnames.slots hnumeral hq
    · rintro ⟨rfl, rfl, _⟩
      rw [hnone hm] at hq
      cases hq
  · rw [slot?_storeAs] at hq
    split at hq
    · rename_i hsame
      cases hq
      rw [hsame.2.1]
      exact shownName_spelled hkey hp
    · exact hnames.added hmissing hq

/-- Defining a slot under a name already in normal form keeps a movie tidy when the slot is new. -/
theorem define (h : m.KeepsTidy n) (hnone : m.Tidy → m.heap.slot? o key = none)
    (hkey : Text.lower key = key) (hp : p.Fresh) : m.KeepsTidy (Movie.define o key p n).2 := by
  have hnormal : n.normalize key = key := Settings.normalize_of_lower hkey n.settings
  have hdefine : (Movie.define o key p n).2 = (storeAs o (n.normalize key) key p n).2 := rfl
  rw [hdefine, hnormal]
  exact h.store hnone hnormal hp

/-- Linking a constructor with its prototype keeps a movie tidy when neither had the slot. -/
theorem linkConstructor (h : m.KeepsTidy n) {constructor prototype : ObjectId}
    (hconstructor : m.Tidy → m.heap.slot? constructor "prototype" = none)
    (hprototype : m.Tidy → m.heap.slot? prototype "constructor" = none) :
    m.KeepsTidy (Movie.linkConstructor constructor prototype n).2 := by
  have hfirst : m.KeepsTidy (Movie.define constructor "prototype"
      (.data (.object prototype) .permanent) n).2 :=
    h.define hconstructor (by decide) (Property.fresh_data _ _)
  have hsecond : m.KeepsTidy (Movie.define prototype "constructor"
      (.data (.object constructor) .hidden) _).2 :=
    hfirst.define hprototype (by decide) (Property.fresh_data _ _)
  exact hsecond

/-! ## New objects -/

/-- A new object keeps a movie tidy when its slots are fresh and its keys are in normal form. -/
theorem allocate {x : Object}
    (hx : ∀ {key p}, x.properties.find? key = some p → m.normalize key = key ∧ p.Fresh) :
    m.KeepsTidy { m with heap := (m.heap.allocate x).2 } := by
  have hslot : m.Tidy → ∀ o key, (m.heap.allocate x).2.slot? o key =
      if o = (m.heap.allocate x).1 then x.properties.find? key else m.heap.slot? o key := by
    intro hm o key
    rw [Heap.slot?, hm.arena.get?_allocate]
    split <;> rfl
  constructor
  · intro hm
    refine ⟨hm.arena.allocate x, fun {o key p} hp => ?_⟩
    rw [hslot hm] at hp
    split at hp
    · obtain ⟨hkey, hfresh⟩ := hx hp
      refine ⟨?_, hfresh.2⟩
      rw [shownName_of_fresh hfresh]
      exact hkey
    · exact (hm.suits hp).of_settings rfl
  · intro hm
    refine ⟨rfl, fun ho => (hm.arena.isLive_allocate x _).mpr (.inr ho),
      fun {o key p} _ hp => ⟨p, ?_, rfl⟩, fun {o key q} hnone hq => ?_⟩
    · rw [hslot hm, if_neg]
      · exact hp
      · rintro rfl
        obtain ⟨y, hy, _⟩ := Option.bind_eq_some_iff.mp hp
        exact hm.arena.not_isLive_allocate x (Heap.isLive_of_get? hy)
    · rw [hslot hm] at hq
      split at hq
      · exact shownName_of_fresh (hx hq).2
      · rw [hnone] at hq
        cases hq

/-- An object that was created since has no slot in the earlier movie. -/
theorem slot?_of_new (h : m.KeepsTidy n) (x : Object) (key : String) (hm : m.Tidy) :
    m.heap.slot? (n.heap.allocate x).1 key = none := by
  have hdead := (h.tidy hm).arena.not_isLive_allocate x
  cases hslot : m.heap.slot? (n.heap.allocate x).1 key with
  | none => rfl
  | some p =>
    obtain ⟨y, hy, _⟩ := Option.bind_eq_some_iff.mp hslot
    exact (hdead ((h.names hm).live (Heap.isLive_of_get? hy))).elim

end KeepsTidy

end Movie

/-! ## Edits -/

/-- The edit leaves a movie tidy and its slots their names. -/
def Edit.KeepsTidy {α : Type} (x : Edit α) : Prop := ∀ m : Movie, m.KeepsTidy (x m).2

namespace Edit.KeepsTidy

open Movie

theorem create (prototype : Option ObjectId) (kind : Kind) :
    Edit.KeepsTidy (Movie.create prototype kind) :=
  fun _ => .allocate fun hp => nomatch hp

theorem createObject : Edit.KeepsTidy Movie.createObject := fun m => create _ _ m

theorem createFunction (callable : Callable) : Edit.KeepsTidy (Movie.createFunction callable) :=
  fun m => create _ _ m

theorem createDate (time : Number) : Edit.KeepsTidy (Movie.createDate time) := fun m => create _ _ m

theorem registerClass (name : String) (cls : ObjectId) :
    Edit.KeepsTidy (Movie.registerClass name cls) :=
  fun _ => .of_heap_eq rfl rfl

theorem nextRandom : Edit.KeepsTidy Movie.nextRandom := fun _ => .of_heap_eq rfl rfl

theorem setPrototype (o : ObjectId) (prototype : Option ObjectId) :
    Edit.KeepsTidy (Movie.setPrototype o prototype) := by
  intro m
  have hheap : (Movie.setPrototype o prototype m).2 =
      { m with heap := (m.heap.setPrototype o prototype).2 } := rfl
  rw [hheap, Heap.setPrototype]
  split
  · exact .refl m
  · exact .modify (fun {_ _ q} hq => ⟨q, hq, .refl q⟩) fun _ hsome => hsome

theorem unwatch (o : ObjectId) (name : String) : Edit.KeepsTidy (Movie.setWatcher o name none) := by
  intro m
  rw [Tending.setWatcher_eq]
  cases m.heap.find? o (m.normalize name) with
  | none => exact .refl m
  | some found => exact .modifySlot fun _ => ⟨rfl, fun _ => rfl⟩

theorem setFlags (o : ObjectId) (names : Option (List String)) (set clear : Flags) :
    Edit.KeepsTidy (Movie.setFlags o names set clear) := by
  intro m
  have hfold : ∀ (keys : List String) (n : Movie), n.KeepsTidy { n with
      heap := keys.foldl (fun h key => h.modifySlot o key (·.adjust set clear)) n.heap } := by
    intro keys
    induction keys with
    | nil => exact fun n => .refl n
    | cons key keys ih =>
      intro n
      have hhead : n.KeepsTidy { n with heap := n.heap.modifySlot o key (·.adjust set clear) } :=
        .modifySlot fun _ => ⟨rfl, id⟩
      exact hhead.trans (ih _)
  exact hfold _ m

theorem truncate (a : ObjectId) (n : Number) : Edit.KeepsTidy (Movie.truncate a n) := by
  intro m
  refine KeepsTidy.eraseWhere fun {key} hcut => ?_
  obtain ⟨i, hi, _⟩ := (Option.any_eq_true _ _).mp hcut
  exact isNumeral_of_arrayIndex? hi

theorem setLength (a : ObjectId) (n : Nat) : Edit.KeepsTidy (Movie.setLength a n) := by
  intro m
  rw [setLength_eq]
  split
  · exact .modifySlot fun _ => ⟨rfl, id⟩
  · rename_i hnone
    exact (KeepsTidy.refl m).define (fun _ => Option.not_isSome_iff_eq_none.mp hnone) (by decide)
      ⟨rfl, rfl⟩

theorem createArray (vs : List Value) : Edit.KeepsTidy (Movie.createArray vs) := by
  intro m
  rw [createArray_eq]
  refine KeepsTidy.trans (.allocate fun {key p} hp => ?_) (setLength _ _ _)
  obtain ⟨i, _, rfl⟩ := isSome_find?_elementSlots (Option.isSome_iff_exists.mpr ⟨p, hp⟩)
  refine ⟨m.settings.normalize_of_isNumeral (isNumeral_indexKey i), ?_⟩
  obtain ⟨e, _, he⟩ := List.mem_map.mp (Table.find?_eq_some_iff.mp hp)
  rw [← (Prod.mk.inj he).2]
  exact Property.fresh_data e.1 {}

theorem box (v : Value) : Edit.KeepsTidy (Movie.box v) := by
  intro m
  cases v with
  | undefined | null | object => exact .refl m
  | bool | number => exact create _ _ m
  | string s =>
    exact (create _ _ m).define ((KeepsTidy.refl m).slot?_of_new _ _) (by decide)
      (Property.fresh_data _ _)

theorem createConstructor (callable : Callable) :
    Edit.KeepsTidy (Movie.createConstructor callable) := by
  intro m
  have hfunction := createFunction callable m
  have hobject := hfunction.trans (createObject _)
  exact hobject.linkConstructor ((KeepsTidy.refl m).slot?_of_new _ _)
    (hfunction.slot?_of_new _ _)

end Edit.KeepsTidy

/-! ## The start -/

namespace Movie

variable {m : Movie}

/-- Tidiness does not depend on settings other than the folding of case. -/
theorem Tidy.under (hm : m.Tidy) {s : Settings} (hs : s.caseSensitive = m.settings.caseSensitive)
    (random : UInt64) : (m.under s random).Tidy := by
  refine ⟨hm.arena, fun {o key p} hp => ⟨?_, (hm.suits hp).unwatched⟩⟩
  have hshown : (m.under s random).shownName key p = m.shownName key p := by
    show (if s.caseSensitive then _ else _) = _
    rw [hs]
    rfl
  rw [normalize_under hs, hshown]
  exact (hm.suits hp).named

/-- A movie is tidy if each entry of each object in it suits its key and is not watched. -/
theorem tidy_of_entries (harena : m.heap.Arena)
    (hentries : ∀ slot ∈ m.heap.slots.toList, ∀ x ∈ slot, ∀ e ∈ x.properties.entries,
      m.normalize (m.shownName e.1 e.2) = e.1 ∧ e.2.watcher = none) : m.Tidy := by
  refine ⟨harena, fun {o key p} hp => ?_⟩
  obtain ⟨x, hx, hp⟩ := Option.bind_eq_some_iff.mp hp
  have hmem : some x ∈ m.heap.slots.toList :=
    List.mem_of_getElem? (Array.getElem?_toList.trans (Option.join_eq_some_iff.mp hx))
  have he := hentries _ hmem x rfl _ (Table.find?_eq_some_iff.mp hp)
  exact ⟨he.1, he.2⟩

/-- Every movie starts tidy. -/
theorem tidy_new (s : Settings) : (new s).Tidy :=
  new_of_under (fun hm hs random => hm.under hs random)
    (tidy_of_entries (Session.reached_new _).arena (by decide +kernel))
    (tidy_of_entries (Session.reached_new _).arena (by decide +kernel)) s

end Movie

end ActionScript
