import ActionScript.Storage.Descriptor

/-! # Coherent descriptors

A descriptor is coherent if it is marked either as data or as an accessor, an accessor is not marked
read-only, and data has no functions. Every descriptor that the operations lead to is coherent,
whatever bits they are given (`Descriptor.Made.coherent`), and each operation does to the slot that
a descriptor stands for what it is meant to do. -/

namespace ActionScript

/-! ## Bytes and sets of attributes -/

namespace FlagByte

variable (f g : FlagByte)

/-- A byte contains a flag when the bit of the flag is set. -/
theorem contains_twoPow {i : Nat} (hi : i < 8) :
    f.contains ⟨BitVec.twoPow 8 i⟩ = f.bits.getLsbD i := by
  rw [contains, BitVec.and_twoPow]
  cases f.bits.getLsbD i with
  | true => simp
  | false =>
    have hne : 0#8 ≠ BitVec.twoPow 8 i := by
      intro heq
      have hbit := congrArg (·.getLsbD i) heq
      simp [hi] at hbit
    simpa using hne

@[simp] theorem contains_dontEnum : f.contains .dontEnum = f.flags.dontEnum :=
  f.contains_twoPow (i := 0) (by decide)

@[simp] theorem contains_dontDelete : f.contains .dontDelete = f.flags.dontDelete :=
  f.contains_twoPow (i := 1) (by decide)

@[simp] theorem contains_readOnly : f.contains .readOnly = f.flags.readOnly :=
  f.contains_twoPow (i := 2) (by decide)

@[simp] theorem contains_data : f.contains .data = f.flags.data :=
  f.contains_twoPow (i := 6) (by decide)

@[simp] theorem contains_accessor : f.contains .accessor = f.flags.accessor :=
  f.contains_twoPow (i := 7) (by decide)

/-- The flags of a byte, bit by bit. -/
theorem flags_eq : f.flags =
    { dontEnum := f.bits.getLsbD 0
      dontDelete := f.bits.getLsbD 1
      readOnly := f.bits.getLsbD 2
      data := f.bits.getLsbD 6
      accessor := f.bits.getLsbD 7 } := rfl

@[simp] theorem flags_none : none.flags = {} := rfl

@[simp] theorem flags_data : data.flags = { data := true } := rfl

@[simp] theorem flags_accessor : accessor.flags = { accessor := true } := rfl

@[simp] theorem flags_readOnly : readOnly.flags = { readOnly := true } := rfl

/-- Inserting bits is the union of the flags. -/
@[simp] theorem flags_insert : (f.insert g).flags = f.flags.union g.flags := by
  simp [flags_eq, insert, Flags.union]

/-- Removing bits is the difference of the flags. -/
@[simp] theorem flags_remove : (f.remove g).flags = f.flags.diff g.flags := by
  simp [flags_eq, remove, Flags.diff]

/-- What a script may ask for leaves the two bits of the kind. -/
@[simp] theorem flags_script :
    f.script.flags = { f.flags with data := false, accessor := false } := by
  simp [flags_eq, script, ofBits, scriptMask]

/-- Flags are written to a byte and read back. -/
@[simp] theorem flags_byte (f : Flags) : f.byte.flags = f := by
  obtain ⟨a, b, c, d, e⟩ := f
  cases a <;> cases b <;> cases c <;> cases d <;> cases e <;> rfl

end FlagByte

namespace Descriptor

variable {d : Descriptor}

/-! ## Coherence -/

/-- The bits and the functions of a descriptor are in step. -/
structure Coherent (d : Descriptor) : Prop where
  kind : d.isData = !d.isAccessor
  writable : d.isAccessor → d.isReadOnly = false
  functions : d.isData → d.getter = none ∧ d.setter = none

/-- A data descriptor is coherent whatever byte it is made with. -/
theorem coherent_data (v : Value) (flags : FlagByte) : (data v flags).Coherent where
  kind := by simp [data, isData, isAccessor, Flags.union, Flags.diff]
  writable := by simp [data, isAccessor, Flags.union, Flags.diff]
  functions _ := ⟨rfl, rfl⟩

/-- An accessor descriptor is coherent whatever byte it is made with. -/
theorem coherent_accessor (getter setter : Option ObjectId) (flags : FlagByte) :
    (accessor getter setter flags).Coherent where
  kind := by simp [accessor, isData, isAccessor, Flags.union, Flags.diff]
  writable := by simp [accessor, isReadOnly, Flags.union, Flags.diff]
  functions := by simp [accessor, isData, Flags.union, Flags.diff]

/-- What an adjustment does to the attributes: scripts turn neither data into an accessor nor an
accessor into data. -/
theorem flags_adjust (d : Descriptor) (set clear : FlagByte) :
    (d.adjust set clear).flags.flags =
      { dontEnum := (d.flags.flags.dontEnum && !clear.flags.dontEnum) || set.flags.dontEnum
        dontDelete := (d.flags.flags.dontDelete && !clear.flags.dontDelete) || set.flags.dontDelete
        readOnly := !d.isAccessor &&
          ((d.flags.flags.readOnly && !clear.flags.readOnly) || set.flags.readOnly)
        data := d.isData
        accessor := d.isAccessor } := by
  have hkind : ((d.flags.remove clear.script).insert set.script).contains .accessor =
      d.isAccessor := by
    simp [isAccessor, Flags.union, Flags.diff]
  show (if _ then FlagByte.remove _ _ else _).flags = _
  rw [hkind, isData]
  cases haccessor : d.isAccessor <;> rw [isAccessor, FlagByte.contains_accessor] at haccessor <;>
    simp [Flags.union, Flags.diff, haccessor]

@[simp] theorem value_adjust (d : Descriptor) (set clear : FlagByte) :
    (d.adjust set clear).value = d.value := rfl

@[simp] theorem getter_adjust (d : Descriptor) (set clear : FlagByte) :
    (d.adjust set clear).getter = d.getter := rfl

@[simp] theorem setter_adjust (d : Descriptor) (set clear : FlagByte) :
    (d.adjust set clear).setter = d.setter := rfl

@[simp] theorem watcher_adjust (d : Descriptor) (set clear : FlagByte) :
    (d.adjust set clear).watcher = d.watcher := rfl

@[simp] theorem originalName_adjust (d : Descriptor) (set clear : FlagByte) :
    (d.adjust set clear).originalName = d.originalName := rfl

theorem isData_adjust (d : Descriptor) (set clear : FlagByte) :
    (d.adjust set clear).isData = d.isData := by
  rw [isData, FlagByte.contains_data, flags_adjust]

theorem isAccessor_adjust (d : Descriptor) (set clear : FlagByte) :
    (d.adjust set clear).isAccessor = d.isAccessor := by
  rw [isAccessor, FlagByte.contains_accessor, flags_adjust]

/-- A change of flags cannot touch the kind, so it keeps a descriptor coherent. -/
theorem Coherent.adjust (h : d.Coherent) (set clear : FlagByte) :
    (d.adjust set clear).Coherent where
  kind := by rw [isData_adjust, isAccessor_adjust, h.kind]
  writable := by
    intro haccessor
    rw [isAccessor_adjust] at haccessor
    rw [isReadOnly, FlagByte.contains_readOnly, flags_adjust, haccessor]
    rfl
  functions := by
    intro hdata
    rw [isData_adjust] at hdata
    exact h.functions hdata

/-- What the operations on descriptors lead to. The bits that they are given are arbitrary. -/
inductive Made : Descriptor → Prop
  | data (v : Value) (flags : FlagByte) : Made (.data v flags)
  | accessor (getter setter : Option ObjectId) (flags : FlagByte) :
    Made (.accessor getter setter flags)
  | assign {d : Descriptor} (h : Made d) (v : Value) : Made (d.assign v)
  | watch {d : Descriptor} (h : Made d) (w : Option Watcher) : Made (d.watch w)
  | spell {d : Descriptor} (h : Made d) (name : String) : Made (d.spell name)
  | adjust {d : Descriptor} (h : Made d) (set clear : FlagByte) : Made (d.adjust set clear)

/-- Every descriptor that can be made is coherent, by induction on how it was made. -/
theorem Made.coherent (h : d.Made) : d.Coherent := by
  induction h with
  | data v flags => exact coherent_data v flags
  | accessor getter setter flags => exact coherent_accessor getter setter flags
  | assign _ v ih => exact ⟨ih.kind, ih.writable, ih.functions⟩
  | watch _ w ih => exact ⟨ih.kind, ih.writable, ih.functions⟩
  | spell _ name ih => exact ⟨ih.kind, ih.writable, ih.functions⟩
  | adjust _ set clear ih => exact ih.adjust set clear

/-! ## The slot of a descriptor -/

/-- A data descriptor shows the data property of its value and flags. -/
theorem property_data (v : Value) (flags : FlagByte) :
    (data v flags).property = .data v flags.flags := by
  simp [data, property, Property.data, isData, isReadOnly, isEnumerable, isDeletable, Flags.union,
    Flags.diff]

/-- An accessor descriptor shows the accessor property of its functions and flags. -/
theorem property_accessor (getter setter : Option ObjectId) (flags : FlagByte) :
    (accessor getter setter flags).property = .accessor getter setter flags.flags := by
  simp [accessor, property, Property.accessor, isData, isEnumerable, isDeletable, Flags.union,
    Flags.diff]

/-- Assigning shows as a new value. -/
theorem property_assign (d : Descriptor) (v : Value) :
    (d.assign v).property = { d.property with value := v } := rfl

/-- Watching shows as a new watcher. -/
theorem property_watch (d : Descriptor) (watcher : Option Watcher) :
    (d.watch watcher).property = { d.property with watcher } := rfl

/-- Spelling shows as a new spelling. -/
theorem property_spell (d : Descriptor) (name : String) :
    (d.spell name).property =
      { d.property with spelling := d.property.spelling <|> some name } := rfl

/-- A change of the byte shows as the change of the flags it stands for. -/
theorem Coherent.property_adjust (h : d.Coherent) (set clear : FlagByte) :
    (d.adjust set clear).property = d.property.adjust set.flags clear.flags := by
  have hkind := h.kind
  rw [property, isData_adjust, isReadOnly, isEnumerable, isDeletable, FlagByte.contains_readOnly,
    FlagByte.contains_dontEnum, FlagByte.contains_dontDelete, flags_adjust]
  cases hdata : d.isData with
  | true =>
    rw [hdata] at hkind
    have haccessor : d.isAccessor = false := by simpa using hkind.symm
    simp [property, Property.adjust, hdata, haccessor, isReadOnly, isEnumerable, isDeletable]
  | false => simp [property, Property.adjust, hdata, isEnumerable, isDeletable]

/-- Every slot is that of a descriptor which the operations lead to. -/
theorem exists_made (p : Property) : ∃ d : Descriptor, d.Made ∧ d.property = p := by
  obtain ⟨access, value, dontEnum, dontDelete, watcher, spelling⟩ := p
  have hbare : ∃ d : Descriptor, d.Made ∧
      d.property = { access, value, dontEnum, dontDelete, watcher } := by
    cases access with
    | data readOnly =>
      refine ⟨_,
        (Made.data value (Flags.byte { dontEnum, dontDelete, readOnly })).watch watcher, ?_⟩
      rw [property_watch, property_data, FlagByte.flags_byte]
      rfl
    | accessor getter setter =>
      refine ⟨_, ((Made.accessor getter setter (Flags.byte { dontEnum, dontDelete })).assign
        value).watch watcher, ?_⟩
      rw [property_watch, property_assign, property_accessor, FlagByte.flags_byte]
      rfl
  obtain ⟨d, hmade, hd⟩ := hbare
  cases spelling with
  | none => exact ⟨d, hmade, hd⟩
  | some name => exact ⟨d.spell name, hmade.spell name, by rw [property_spell, hd]; rfl⟩

end Descriptor

end ActionScript
