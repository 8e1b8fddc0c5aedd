import Mathlib.Logic.Relation
import Mathlib.Order.Nat
import Mathlib.Tactic.ByContra
import ActionScript.Actions

/-! # Sharing of action blocks

A store files one block for each buffer, the last that was made for it (`LeadsTo.filed`). So a
block that is asked for again by buffer, name and parent is given back if and only if it is alive
and no other block has been made for its buffer in the meantime (`create_again_iff`). Names that
are asked for by turns are not shared, whether their blocks are alive or not (`create_by_turns`). -/

namespace ActionScript.ActionsStore

variable {s t : ActionsStore} {references references' : List ActionsId} {buffer : BufferId}
  {bytes bytes' : List UInt8} {name : String} {parent : Option ActionsId} {id : ActionsId}

/-! ## Steps of a store -/

/-- A block is asked for, or the embedder gives a reference up. Functions that refer to blocks come
and go between the steps. -/
inductive Step : ActionsStore → ActionsStore → Prop
  | create (s : ActionsStore) (references : List ActionsId) (buffer : BufferId)
      (bytes : List UInt8) (name : String) (parent : Option ActionsId) :
      Step s (s.create references buffer bytes name parent).2
  | drop (s : ActionsStore) (id : ActionsId) : Step s (s.drop id)

/-- Steps lead from one store to the other. -/
def LeadsTo : ActionsStore → ActionsStore → Prop := Relation.ReflTransGen Step

theorem reusable?_eq_some_iff :
    s.reusable? references buffer name parent = some id ↔
      s.latest.find? buffer = some id ∧ s.isAlive references id ∧
        ∃ block, s.get? id = some block ∧ block.name = name ∧ block.parent = parent := by
  rw [reusable?]
  constructor
  · intro h
    obtain ⟨id', hfind, h⟩ := Option.bind_eq_some_iff.mp h
    obtain ⟨block, hblock, h⟩ := Option.bind_eq_some_iff.mp h
    split at h
    · rename_i hsame
      cases h
      simp only [Bool.and_eq_true, beq_iff_eq] at hsame
      exact ⟨hfind, hsame.1.1, block, hblock, hsame.1.2, hsame.2⟩
    · cases h
  · rintro ⟨hfind, halive, block, hblock, rfl, rfl⟩
    simp [hfind, hblock, halive]

/-- A block is used again, or a new one is added and filed. -/
theorem create_cases (s : ActionsStore) (references : List ActionsId) (buffer : BufferId)
    (bytes : List UInt8) (name : String) (parent : Option ActionsId) :
    (∃ id, s.reusable? references buffer name parent = some id ∧
      s.create references buffer bytes name parent = (id, { s with held := id :: s.held })) ∨
    s.reusable? references buffer name parent = none ∧
      s.create references buffer bytes name parent = (⟨s.blocks.size⟩, {
        blocks := s.blocks.push ⟨buffer, bytes, name, parent⟩
        latest := s.latest.insert buffer ⟨s.blocks.size⟩
        held := ⟨s.blocks.size⟩ :: s.held }) := by
  rw [create]
  cases s.reusable? references buffer name parent with
  | some id => exact .inl ⟨id, rfl, rfl⟩
  | none => exact .inr ⟨rfl, rfl⟩

theorem index_lt_of_get? {block : Actions} (h : s.get? id = some block) :
    id.index < s.blocks.size := by
  obtain ⟨hlt, _⟩ := Array.getElem?_eq_some_iff.mp h
  exact hlt

/-- Asking for a block gives one that was there exactly if it can be used again. -/
theorem create_eq_iff_of_get? {block : Actions} (h : s.get? id = some block) :
    (s.create references buffer bytes name parent).1 = id ↔
      s.reusable? references buffer name parent = some id := by
  rcases s.create_cases references buffer bytes name parent with ⟨id', hid, hs⟩ | ⟨hid, hs⟩
  · rw [hs, hid, Option.some.injEq]
  · rw [hs, hid]
    refine iff_of_false (fun heq => ?_) (by nofun)
    have hlt := index_lt_of_get? h
    subst heq
    exact Nat.lt_irrefl _ hlt

/-! ## Blocks stay -/

/-- The blocks of the one store stand at the same places in the other. -/
def Keeps (s t : ActionsStore) : Prop := s.blocks.toList <+: t.blocks.toList

theorem Step.keeps (h : s.Step t) : s.Keeps t := by
  cases h with
  | create references buffer bytes name parent =>
    rcases s.create_cases references buffer bytes name parent with ⟨_, _, hs⟩ | ⟨_, hs⟩
    · rw [hs]
      exact List.prefix_refl _
    · rw [hs, Keeps, Array.toList_push]
      exact List.prefix_append _ _
  | drop id => exact List.prefix_refl _

theorem LeadsTo.keeps (h : s.LeadsTo t) : s.Keeps t := by
  induction h with
  | refl => exact List.prefix_refl _
  | tail _ hstep ih => exact ih.trans hstep.keeps

theorem Keeps.get? (h : s.Keeps t) (hid : id.index < s.blocks.size) : t.get? id = s.get? id := by
  obtain ⟨rest, hrest⟩ := h
  rw [ActionsStore.get?, ActionsStore.get?, ← Array.getElem?_toList, ← Array.getElem?_toList,
    ← hrest, List.getElem?_append_left hid]

/-! ## The block that is filed -/

/-- The last block that was made for a buffer. -/
def IsLast (s : ActionsStore) (buffer : BufferId) (id : ActionsId) : Prop :=
  (∃ block, s.get? id = some block ∧ block.buffer = buffer) ∧
    ∀ later block, id.index < later.index → s.get? later = some block → block.buffer ≠ buffer

/-- Each buffer has the last block that was made for it on file. -/
def Filed (s : ActionsStore) : Prop :=
  ∀ buffer id, s.latest.find? buffer = some id ↔ s.IsLast buffer id

theorem filed_empty : Filed {} := by
  intro buffer id
  refine iff_of_false (by nofun) fun h => ?_
  obtain ⟨block, hblock, _⟩ := h.1
  cases hblock

theorem get?_push {block : Actions} {held : List ActionsId} {latest : Table BufferId ActionsId} :
    get? ⟨s.blocks.push block, latest, held⟩ id =
      if id = ⟨s.blocks.size⟩ then some block else s.get? id := by
  obtain ⟨i⟩ := id
  simp [get?, Array.getElem?_push]

/-- A new block is the last of its buffer, and no other buffer notices it. -/
theorem isLast_push_iff {block : Actions} {held : List ActionsId}
    {latest : Table BufferId ActionsId} :
    IsLast ⟨s.blocks.push block, latest, held⟩ buffer id ↔
      if buffer = block.buffer then id = ⟨s.blocks.size⟩ else s.IsLast buffer id := by
  split
  · rename_i hbuffer
    constructor
    · intro h
      obtain ⟨made, hmade, _⟩ := h.1
      rw [get?_push] at hmade
      by_contra hid
      rw [if_neg hid] at hmade
      have hnew := h.2 ⟨s.blocks.size⟩ block (index_lt_of_get? hmade)
      rw [get?_push, if_pos rfl] at hnew
      exact hnew rfl hbuffer.symm
    · rintro rfl
      refine ⟨⟨block, by rw [get?_push, if_pos rfl], hbuffer.symm⟩, fun later b hlt hb => ?_⟩
      have hne : later ≠ ⟨s.blocks.size⟩ := fun h => hlt.ne (congrArg ActionsId.index h).symm
      rw [get?_push, if_neg hne] at hb
      exact (Nat.lt_asymm hlt (index_lt_of_get? hb)).elim
  · rename_i hbuffer
    have hget : ∀ {id b}, b.buffer = buffer →
        (get? ⟨s.blocks.push block, latest, held⟩ id = some b ↔ s.get? id = some b) := by
      intro id b hb
      rw [get?_push]
      split
      · rename_i hid
        refine iff_of_false (fun h => ?_) fun h => ?_
        · cases h
          exact hbuffer hb.symm
        · exact (index_lt_of_get? h).ne (congrArg ActionsId.index hid)
      · rfl
    constructor
    · intro h
      obtain ⟨b, hb, hmade⟩ := h.1
      refine ⟨⟨b, (hget hmade).mp hb, hmade⟩, ?_⟩
      exact fun later b hlt hb heq => h.2 later b hlt ((hget heq).mpr hb) heq
    · intro h
      obtain ⟨b, hb, hmade⟩ := h.1
      refine ⟨⟨b, (hget hmade).mpr hb, hmade⟩, ?_⟩
      exact fun later b hlt hb heq => h.2 later b hlt ((hget heq).mp hb) heq

theorem Filed.step (h : s.Filed) (hstep : s.Step t) : t.Filed := by
  cases hstep with
  | create references buffer bytes name parent =>
    rcases s.create_cases references buffer bytes name parent with ⟨_, _, hs⟩ | ⟨_, hs⟩
    · rw [hs]
      exact h
    · rw [hs]
      intro buffer' id
      rw [isLast_push_iff, Table.find?_insert]
      split
      · rw [Option.some.injEq, eq_comm]
      · exact h buffer' id
  | drop id => exact h

theorem LeadsTo.filed (h : LeadsTo {} s) : s.Filed := by
  induction h with
  | refl => exact filed_empty
  | tail _ hstep ih => exact ih.step hstep

/-- The block that is given has the name and the parent that were asked for, and is the last of
its buffer. -/
theorem Filed.create (h : s.Filed)
    (hcreate : s.create references buffer bytes name parent = (id, t)) :
    t.IsLast buffer id ∧ ∃ block, t.get? id = some block ∧ block.name = name ∧
      block.parent = parent := by
  rcases s.create_cases references buffer bytes name parent with ⟨id', hid, hs⟩ | ⟨_, hs⟩
  · obtain ⟨hfind, _, hblock⟩ := reusable?_eq_some_iff.mp hid
    cases hs.symm.trans hcreate
    exact ⟨(h buffer id).mp hfind, hblock⟩
  · cases hs.symm.trans hcreate
    refine ⟨isLast_push_iff.mpr (if_pos rfl ▸ rfl), ⟨buffer, bytes, name, parent⟩, ?_, rfl, rfl⟩
    rw [get?_push, if_pos rfl]

/-- The last block of a buffer stays the last while none is made for the buffer. -/
theorem IsLast.keeps_iff (h : s.IsLast buffer id) (hkeeps : s.Keeps t) :
    t.IsLast buffer id ↔
      ∀ block ∈ t.blocks.toList.drop s.blocks.size, block.buffer ≠ buffer := by
  obtain ⟨⟨block, hblock, hbuffer⟩, hlast⟩ := h
  have hlt := index_lt_of_get? hblock
  constructor
  · intro ht b hb
    obtain ⟨i, hi⟩ := List.mem_iff_getElem?.mp hb
    rw [List.getElem?_drop, Array.getElem?_toList] at hi
    exact ht.2 ⟨s.blocks.size + i⟩ b (hlt.trans_le (Nat.le_add_right _ _)) hi
  · intro hnone
    refine ⟨⟨block, (hkeeps.get? hlt).trans hblock, hbuffer⟩, fun later b hlater hb => ?_⟩
    rcases Nat.lt_or_ge later.index s.blocks.size with hold | hnew
    · exact hlast later b hlater ((hkeeps.get? hold).symm.trans hb)
    · refine hnone b (List.mem_iff_getElem?.mpr ⟨later.index - s.blocks.size, ?_⟩)
      rw [List.getElem?_drop, Array.getElem?_toList, Nat.add_sub_cancel' hnew]
      exact hb

/-- Take any block that was asked for, and whatever blocks were asked for and given up since.
Asking for the same buffer, name and parent again gives that very block if and only if it is alive
and no block has been made for the buffer in between. -/
theorem create_again_iff {s' : ActionsStore} (hs : LeadsTo {} s)
    (hcreate : s.create references buffer bytes name parent = (id, s')) (ht : s'.LeadsTo t) :
    (t.create references' buffer bytes' name parent).1 = id ↔
      t.isAlive references' id ∧
        ∀ block ∈ t.blocks.toList.drop s'.blocks.size, block.buffer ≠ buffer := by
  obtain ⟨hlast, block, hblock, hname, hparent⟩ := hs.filed.create hcreate
  have hstep : s.Step s' := by
    have hstep := Step.create s references buffer bytes name parent
    rwa [hcreate] at hstep
  have hfiled : t.Filed := LeadsTo.filed ((hs.tail hstep).trans ht)
  have hstays := (ht.keeps.get? (index_lt_of_get? hblock)).trans hblock
  rw [create_eq_iff_of_get? hstays, reusable?_eq_some_iff, hfiled buffer,
    hlast.keeps_iff ht.keeps]
  constructor
  · rintro ⟨hnone, halive, _⟩
    exact ⟨halive, hnone⟩
  · rintro ⟨halive, hnone⟩
    exact ⟨hnone, halive, block, hstays, hname, hparent⟩

/-- Asks for a frame. -/
def askFrame : ActionsId × ActionsStore := create {} [] ⟨0⟩ [] "frame" none

/-- Asks for two blocks of another buffer after that, and gives the first of them up. -/
def askElsewhere : ActionsStore :=
  ((askFrame.2.create [] ⟨1⟩ [] "button" (some askFrame.1)).2.drop ⟨1⟩).create [] ⟨1⟩ [] "clip"
    none |>.2

theorem create_again_askElsewhere :
    LeadsTo {} askElsewhere ∧ (askElsewhere.create [] ⟨0⟩ [] "frame" none).1 = askFrame.1 := by
  have hlater : askFrame.2.LeadsTo askElsewhere :=
    ((Relation.ReflTransGen.single (.create ..)).tail (.drop ..)).tail (.create ..)
  have hframe : create {} [] ⟨0⟩ [] "frame" none = (askFrame.1, askFrame.2) := rfl
  refine ⟨.head (.create ..) hlater, ?_⟩
  exact (create_again_iff .refl hframe hlater).mpr ⟨by decide +kernel, by decide +kernel⟩

/-- A frame and a button of one buffer are asked for by turns: the frame is alive, and yet another
block is made for it. -/
theorem create_by_turns :
    let button := askFrame.2.create [] ⟨0⟩ [] "button" none
    LeadsTo {} button.2 ∧ button.2.isAlive [] askFrame.1 ∧
      (button.2.create [] ⟨0⟩ [] "frame" none).1 ≠ askFrame.1 :=
  ⟨(Relation.ReflTransGen.single (.create ..)).tail (.create ..), by decide +kernel⟩

end ActionScript.ActionsStore
