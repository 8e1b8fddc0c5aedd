import ActionScript.Property

/-! # Descriptors

How a slot lies in memory: its attributes are the bits of one byte, and a getter and a setter stand
beside them whatever the byte says. Nothing in the type keeps the bits and the functions in step;
the ways to make and change a descriptor have to. -/

namespace ActionScript

/-- The attributes of a slot as the bits of one byte. -/
structure FlagByte where
  bits : BitVec 8
deriving DecidableEq, Inhabited

namespace FlagByte

/-- No attribute. -/
def none : FlagByte := ⟨0⟩

/-- Enumeration does not show the slot. -/
def dontEnum : FlagByte := ⟨1⟩

/-- Scripts cannot delete the slot. -/
def dontDelete : FlagByte := ⟨2⟩

/-- The value of the slot cannot be written. -/
def readOnly : FlagByte := ⟨4⟩

/-- The slot holds a value. -/
def data : FlagByte := ⟨64⟩

/-- The slot answers through functions. -/
def accessor : FlagByte := ⟨128⟩

/-- The bits that scripts may change. -/
def scriptMask : FlagByte := ⟨1 ||| 2 ||| 4⟩

/-- Bits that stand for no attribute are dropped. -/
def ofBits (bits : BitVec 8) : FlagByte := ⟨bits &&& (1 ||| 2 ||| 4 ||| 64 ||| 128)⟩

/-- Whether all bits of the second byte are set in the first. -/
def contains (f g : FlagByte) : Bool := f.bits &&& g.bits == g.bits

/-- Sets the bits of the second byte in the first. -/
def insert (f g : FlagByte) : FlagByte := ⟨f.bits ||| g.bits⟩

/-- Clears the bits of the second byte in the first. -/
def remove (f g : FlagByte) : FlagByte := ⟨f.bits &&& ~~~g.bits⟩

/-- The bits among them that scripts may change. -/
def script (f : FlagByte) : FlagByte := ofBits (f.bits &&& scriptMask.bits)

/-- The attributes that the bits stand for. -/
def flags (f : FlagByte) : Flags := .ofBits f.bits.toNat

end FlagByte

/-- The byte of a set of attributes. -/
def Flags.byte (f : Flags) : FlagByte := ⟨BitVec.ofNat 8 f.bits⟩

/-- A slot as it is stored. -/
structure Descriptor where
  flags : FlagByte
  value : Value := .undefined
  getter : Option ObjectId := none
  setter : Option ObjectId := none
  watcher : Option Watcher := none
  /-- The spelling that enumeration shows where case does not count. -/
  originalName : Option String := none
deriving DecidableEq

namespace Descriptor

/-- A descriptor that holds a value, whatever kind of slot the given bits say it is. -/
def data (value : Value) (flags : FlagByte) : Descriptor where
  flags := (flags.remove .accessor).insert .data
  value := value

/-- A descriptor that answers through functions, whatever kind of slot the given bits say it is. -/
def accessor (getter setter : Option ObjectId) (flags : FlagByte) : Descriptor where
  flags := (flags.remove (.insert .data .readOnly)).insert .accessor
  getter := getter
  setter := setter

/-- Whether the bits mark the slot as data. -/
def isData (d : Descriptor) : Bool := d.flags.contains .data

/-- Whether the bits mark the slot as an accessor. -/
def isAccessor (d : Descriptor) : Bool := d.flags.contains .accessor

def isEnumerable (d : Descriptor) : Bool := !d.flags.contains .dontEnum

def isDeletable (d : Descriptor) : Bool := !d.flags.contains .dontDelete

def isReadOnly (d : Descriptor) : Bool := d.flags.contains .readOnly

/-- Puts another value in place, though the slot may have become an accessor meanwhile. -/
def assign (d : Descriptor) (value : Value) : Descriptor := { d with value }

/-- Sets or drops the watcher. -/
def watch (d : Descriptor) (watcher : Option Watcher) : Descriptor := { d with watcher }

/-- Remembers a spelling unless there is one. -/
def spell (d : Descriptor) (name : String) : Descriptor :=
  { d with originalName := d.originalName <|> some name }

/-- Clears and then sets the bits that scripts may change. An accessor does not become read-only. -/
def adjust (d : Descriptor) (set clear : FlagByte) : Descriptor :=
  let flags := (d.flags.remove clear.script).insert set.script
  { d with flags := if flags.contains .accessor then flags.remove .readOnly else flags }

/-- The slot that a descriptor stands for. -/
def property (d : Descriptor) : Property where
  access := if d.isData then .data d.isReadOnly else .accessor d.getter d.setter
  value := d.value
  dontEnum := !d.isEnumerable
  dontDelete := !d.isDeletable
  watcher := d.watcher
  spelling := d.originalName

end Descriptor

end ActionScript
