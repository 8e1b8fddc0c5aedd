import ActionScript.Proofs.ArgumentList

/-! # Changes of attributes

A change of attributes touches the own slots whose keys are listed, and of each of them nothing but
the attributes that scripts may change (`Movie.setFlags_adjusts`). How often and in which order a
key is listed does not matter, and neither does a second change of the same kind. A list is given
as a text or as an array, and only the reading of an array may be stopped
(`Machine.adjustSlots_stops`). -/

namespace ActionScript

/-! ## Attributes of a slot -/

namespace Flags

/-- The attributes among them that scripts may change. -/
def script (f : Flags) : Flags := { f with data := false, accessor := false }

/-- The attributes once some were cleared and then some were set. An accessor is not read-only. -/
def adjusted (f set clear : Flags) : Flags :=
  { (f.diff clear.script).union set.script with
    readOnly := ((f.diff clear.script).union set.script).readOnly && !f.accessor }

end Flags

namespace Property

/-- The slots differ in their attributes at most. -/
structure SameButFlags (p q : Property) : Prop where
  value : q.value = p.value
  isData : q.isData = p.isData
  getter : q.getter = p.getter
  setter : q.setter = p.setter
  watcher : q.watcher = p.watcher
  spelling : q.spelling = p.spelling

variable (p : Property) (set clear : Flags)

theorem sameButFlags_adjust : p.SameButFlags (p.adjust set clear) := by
  obtain ⟨access, _⟩ := p
  cases access <;> exact ⟨rfl, rfl, rfl, rfl, rfl, rfl⟩

/-- An adjusted property has the adjusted flags. -/
theorem flags_adjust : (p.adjust set clear).flags = p.flags.adjusted set clear := by
  obtain ⟨access, _⟩ := p
  cases access <;> simp [flags, adjust, Flags.adjusted, Flags.diff, Flags.union, Flags.script,
    isReadOnly, isData, isAccessor]

/-- Adjusting twice is adjusting once. -/
theorem adjust_adjust : (p.adjust set clear).adjust set clear = p.adjust set clear := by
  have hbit : ∀ old clear set : Bool,
      (((old && !clear || set) && !clear) || set) = (old && !clear || set) := by decide
  obtain ⟨access, _⟩ := p
  cases access <;> simp [adjust, hbit]

end Property

/-! ## Changes of listed keys -/

namespace Table

variable {κ ν : Type} [DecidableEq κ] {f : ν → ν}

/-- Changes the values of some keys, one after the other. -/
def modifyAll (t : Table κ ν) (keys : List κ) (f : ν → ν) : Table κ ν :=
  keys.foldl (fun t k => t.modify k f) t

/-- An idempotent change of listed keys changes exactly their entries, in place. -/
theorem entries_modifyAll (hf : ∀ v, f (f v) = f v) (t : Table κ ν) (keys : List κ) :
    (t.modifyAll keys f).entries =
      t.entries.map fun e => if e.1 ∈ keys then (e.1, f e.2) else e := by
  induction keys generalizing t with
  | nil => simp [modifyAll]
  | cons k keys ih =>
    have hcons : t.modifyAll (k :: keys) f = (t.modify k f).modifyAll keys f := rfl
    rw [hcons, ih]
    show (modifyEntries k f t.entries).map _ = _
    rw [modifyEntries, List.map_map]
    refine List.map_congr_left fun e _ => ?_
    by_cases hk : e.1 = k <;> by_cases hkeys : e.1 ∈ keys <;> simp [*]

theorem keys_modifyAll (t : Table κ ν) (keys : List κ) (f : ν → ν) :
    (t.modifyAll keys f).keys = t.keys := by
  induction keys generalizing t with
  | nil => rfl
  | cons k keys ih => exact (ih _).trans (keys_modify ..)

/-- It is seen at the listed keys only. -/
theorem find?_modifyAll (hf : ∀ v, f (f v) = f v) (t : Table κ ν) (keys : List κ) (k : κ) :
    (t.modifyAll keys f).find? k = (t.find? k).map fun v => if k ∈ keys then f v else v := by
  induction keys generalizing t with
  | nil => simp [modifyAll]
  | cons k' keys ih =>
    have hcons : t.modifyAll (k' :: keys) f = (t.modify k' f).modifyAll keys f := rfl
    rw [hcons, ih, find?_modify]
    cases t.find? k with
    | none => simp
    | some v => by_cases hk : k = k' <;> by_cases hkeys : k ∈ keys <;> simp [*]

/-- Only which keys of the table are listed matters. -/
theorem modifyAll_congr (hf : ∀ v, f (f v) = f v) {t : Table κ ν} {keys keys' : List κ}
    (h : ∀ k ∈ t.keys, k ∈ keys ↔ k ∈ keys') : t.modifyAll keys f = t.modifyAll keys' f := by
  refine eq_of_entries ?_
  rw [entries_modifyAll hf, entries_modifyAll hf]
  refine List.map_congr_left fun e he => ?_
  exact if_congr (h e.1 (List.mem_map_of_mem he)) rfl rfl

/-- Made twice, it does nothing more. -/
theorem modifyAll_modifyAll (hf : ∀ v, f (f v) = f v) (t : Table κ ν) (keys : List κ) :
    (t.modifyAll keys f).modifyAll keys f = t.modifyAll keys f := by
  have happend : (t.modifyAll keys f).modifyAll keys f = t.modifyAll (keys ++ keys) f :=
    List.foldl_append.symm
  rw [happend]
  exact modifyAll_congr hf fun k _ => by simp

end Table

namespace Movie

variable {m : Movie} {o : ObjectId} {x : Object}

/-- The key is that of a listed name; without a list every key is. -/
def Listed (m : Movie) (names : Option (List String)) (key : String) : Prop :=
  ∀ list, names = some list → key ∈ list.map m.normalize

/-- The keys that a change of attributes goes through. -/
def listedKeys (m : Movie) (o : ObjectId) : Option (List String) → List String
  | some names => names.map m.normalize
  | none => m.heap.keysOf o

/-- A slot is changed when its key is the normal form of a listed name, or all are. -/
theorem mem_listedKeys_iff {names : Option (List String)} {key : String}
    (hkey : key ∈ m.heap.keysOf o) : key ∈ m.listedKeys o names ↔ m.Listed names key := by
  cases names with
  | none => simp [listedKeys, Listed, hkey]
  | some list => simp [listedKeys, Listed]

theorem modifySlots_eq (keys : List String) (f : Property → Property) :
    { m with heap := keys.foldl (fun h key => h.modifySlot o key f) m.heap } =
      m.reslot o (·.modifyAll keys f) := by
  induction keys generalizing m with
  | nil => exact (m.reslot_id o).symm
  | cons key keys ih => exact (ih (m := m.reslot o (·.modify key f))).trans (m.reslot_reslot o)

/-- A change of flags is one change of the slots of the object. -/
theorem setFlags_eq (names : Option (List String)) (set clear : Flags) :
    (setFlags o names set clear m).2 =
      m.reslot o (·.modifyAll (m.listedKeys o names) (·.adjust set clear)) := by
  rw [← modifySlots_eq]
  cases names with
  | some names => rfl
  | none =>
    have hkeys : m.listedKeys o none =
        ((m.heap.get? o).map fun (object : Object) => object.properties.keys).getD [] := by
      rw [listedKeys, Heap.keysOf]
      cases m.heap.get? o <;> rfl
    rw [hkeys]
    rfl

/-- The attributes of the listed own slots of an object were changed. -/
structure Adjusts (m m' : Movie) (o : ObjectId) (names : Option (List String))
    (set clear : Flags) : Prop where
  registries : m' = { m with heap := m'.heap }
  others : ∀ p, p ≠ o → m'.heap.get? p = m.heap.get? p
  object : ∀ {x}, m.heap.get? o = some x → ∃ t, m'.heap.get? o = some { x with properties := t }
  keys : m'.heap.keysOf o = m.heap.keysOf o
  listed : ∀ {key p}, m.heap.slot? o key = some p → m.Listed names key →
    ∃ q, m'.heap.slot? o key = some q ∧ p.SameButFlags q ∧ q.flags = p.flags.adjusted set clear
  unlisted : ∀ {key}, ¬ m.Listed names key → m'.heap.slot? o key = m.heap.slot? o key
  absent : ∀ {key}, m.heap.slot? o key = none → m'.heap.slot? o key = none

/-- The listed slots get the adjusted flags, the others stay. -/
theorem slot?_setFlags (names : Option (List String)) (set clear : Flags) (key : String) :
    (setFlags o names set clear m).2.heap.slot? o key = (m.heap.slot? o key).map fun p =>
      if key ∈ m.listedKeys o names then p.adjust set clear else p := by
  rw [setFlags_eq]
  cases hx : m.heap.get? o with
  | none => rw [Heap.slot?, Heap.slot?, get?_reslot, if_pos rfl, hx]; rfl
  | some x =>
    rw [slot?_reslot hx, Heap.slot?_eq hx]
    exact Table.find?_modifyAll (fun p => p.adjust_adjust set clear) ..

/-- No key comes, goes or moves. -/
theorem keysOf_setFlags (names : Option (List String)) (set clear : Flags) :
    (setFlags o names set clear m).2.heap.keysOf o = m.heap.keysOf o := by
  rw [setFlags_eq, Heap.keysOf, Heap.keysOf, get?_reslot, if_pos rfl]
  cases m.heap.get? o with
  | none => rfl
  | some x => exact Table.keys_modifyAll ..

/-- The change of flags, with its frame. -/
theorem setFlags_adjusts (names : Option (List String)) (set clear : Flags) :
    m.Adjusts (setFlags o names set clear m).2 o names set clear where
  registries := rfl
  others p hp := by rw [setFlags_eq, get?_reslot, if_neg hp]
  object hx := by
    rw [setFlags_eq, get?_reslot, if_pos rfl, hx]
    exact ⟨_, rfl⟩
  keys := keysOf_setFlags names set clear
  listed {key p} hslot hlisted := by
    have hkey : key ∈ m.heap.keysOf o := Heap.mem_keysOf_of_slot? hslot
    refine ⟨p.adjust set clear, ?_, p.sameButFlags_adjust set clear, p.flags_adjust set clear⟩
    rw [slot?_setFlags, hslot, Option.map_some, if_pos ((mem_listedKeys_iff hkey).mpr hlisted)]
  unlisted {key} hlisted := by
    rw [slot?_setFlags]
    cases hslot : m.heap.slot? o key with
    | none => rfl
    | some p =>
      have hkey : key ∈ m.heap.keysOf o := Heap.mem_keysOf_of_slot? hslot
      rw [Option.map_some, if_neg fun h => hlisted ((mem_listedKeys_iff hkey).mp h)]
  absent hslot := by
    rw [slot?_setFlags, hslot]
    rfl

/-- Only which own keys are listed matters, not in which order or how often. -/
theorem setFlags_congr {names names' : Option (List String)}
    (h : ∀ key ∈ m.heap.keysOf o, m.Listed names key ↔ m.Listed names' key) (set clear : Flags) :
    (setFlags o names set clear m).2 = (setFlags o names' set clear m).2 := by
  rw [setFlags_eq, setFlags_eq]
  refine reslot_congr fun x hx => ?_
  refine Table.modifyAll_congr (fun p => p.adjust_adjust set clear) fun key hkey => ?_
  rw [← Heap.keysOf_eq hx] at hkey
  rw [mem_listedKeys_iff hkey, mem_listedKeys_iff hkey, h key hkey]

/-- Changing the flags twice is changing them once. -/
theorem setFlags_setFlags (names : Option (List String)) (set clear : Flags) :
    (setFlags o names set clear (setFlags o names set clear m).2).2 =
      (setFlags o names set clear m).2 := by
  have hkeys : (setFlags o names set clear m).2.listedKeys o names = m.listedKeys o names := by
    cases names with
    | some list => rfl
    | none => exact keysOf_setFlags none set clear
  conv_lhs => rw [setFlags_eq, hkeys]
  rw [setFlags_eq, reslot_reslot]
  exact congrArg (m.reslot o) (funext fun t =>
    Table.modifyAll_modifyAll (fun p => p.adjust_adjust set clear) ..)

/-- A change that alters the flags of a listed slot is seen in the movie. -/
theorem setFlags_ne {names : Option (List String)} {set clear : Flags} {key : String} {p : Property}
    (hslot : m.heap.slot? o key = some p) (hlisted : m.Listed names key)
    (hflags : p.flags.adjusted set clear ≠ p.flags) : (setFlags o names set clear m).2 ≠ m := by
  intro heq
  obtain ⟨q, hq, -, hadjusted⟩ := (setFlags_adjusts names set clear).listed hslot hlisted
  rw [heq, hslot] at hq
  cases hq
  exact hflags hadjusted.symm

end Movie

/-! ## Lists as texts -/

namespace Text

variable {c : Char} {cs : List Char}

theorem splitChars_of_not_mem (h : c ∉ cs) : splitChars c cs = [cs] := by
  induction cs with
  | nil => rfl
  | cons x cs ih =>
    rw [List.mem_cons, not_or] at h
    rw [splitChars, if_neg (Ne.symm h.1), ih h.2]

/-- The text before the first separator comes off as one piece. -/
theorem splitChars_append (h : c ∉ cs) (rest : List Char) :
    splitChars c (cs ++ c :: rest) = cs :: splitChars c rest := by
  induction cs with
  | nil => rw [List.nil_append, splitChars, if_pos rfl]
  | cons x cs ih =>
    rw [List.mem_cons, not_or] at h
    rw [List.cons_append, splitChars, if_neg (Ne.symm h.1), ih h.2]

/-- A text of parts that a character separates is split into the parts again. -/
theorem split_intercalate {separator : String} (hseparator : separator.toList = [c])
    {parts : List String} (hne : parts ≠ []) (hparts : ∀ part ∈ parts, c ∉ part.toList) :
    split c (separator.intercalate parts) = parts := by
  induction parts with
  | nil => exact absurd rfl hne
  | cons part rest ih =>
    obtain ⟨hpart, hrest⟩ := List.forall_mem_cons.mp hparts
    cases rest with
    | nil =>
      rw [String.intercalate_singleton, split, splitChars_of_not_mem hpart]
      simp
    | cons next rest =>
      have htail := ih (List.cons_ne_nil next rest) hrest
      rw [split] at htail ⊢
      rw [String.intercalate_cons_cons, String.toList_append, String.toList_append,
        hseparator, List.append_assoc, List.singleton_append,
        splitChars_append hpart, List.map_cons, htail, String.ofList_toList]

end Text

/-! ## The call -/

/-- Only the three lowest bits of a number are attributes for scripts. -/
theorem Builtin.scriptFlags_toInt32 (x : Number) :
    scriptFlags x.toInt32 = scriptFlags x.toInt := by
  have hbits : x.toInt32 % 8 = x.toInt % 8 := by
    have hmod : x.toInt32 % 0x100000000 = x.toInt % 0x100000000 := by
      rw [Number.toInt32_eq]
      exact Int.bmod_emod
    omega
  rw [scriptFlags, scriptFlags, hbits]

/-- An array of texts that is read without a call. -/
structure Movie.ListsTexts (m : Movie) (a : ObjectId) (texts : List String) : Prop where
  plain : m.PlainArray a
  length : (m.settings.numberOf (m.valueAt a Movie.lengthKey)).toUInt32 = texts.length
  element : ∀ {i}, (hi : i < texts.length) → m.valueAt a (indexKey i) = .string texts[i]

/-- The length read off an array of texts is their number, if it is within the bound on elements. -/
theorem Movie.ListsTexts.readLength_eq {m : Movie} {a : ObjectId} {texts : List String}
    (h : m.ListsTexts a texts) (hlimit : texts.length ≤ m.settings.maxElements) :
    m.readLength a = texts.length := by
  rw [readLength, h.length]
  omega

/-- The elements read off such an array are the texts. -/
theorem Movie.ListsTexts.elementsOf_eq {m : Movie} {a : ObjectId} {texts : List String}
    (h : m.ListsTexts a texts) (hlimit : texts.length ≤ m.settings.maxElements) :
    m.elementsOf a = texts.map .string := by
  rw [elementsOf, h.readLength_eq hlimit]
  refine List.ext_getElem (by simp) fun i hi _ => ?_
  rw [List.length_map, List.length_range] at hi
  rw [List.getElem_map, List.getElem_range, h.element hi, List.getElem_map]

/-- A new array of texts is one. -/
theorem Movie.Created.listsTexts {m : Movie} {a : ObjectId} {texts : List String}
    (ha : m.Created a (texts.map .string)) (hsize : texts.length < 2 ^ 32) :
    m.ListsTexts a texts where
  plain := ha.plainArray
  length := by
    have hint : (Number.ofNat (texts.map Value.string).length).toInt = texts.length := by
      rw [List.length_map, Number.toInt_ofNat (by omega)]
    rw [ha.valueAt_lengthKey]
    exact Number.toUInt32_of_toInt hint hsize
  element hi := by rw [ha.valueAt_indexKey (by simpa using hi), List.getElem_map]

namespace Machine

variable {σ : Type} [Journal σ] (machine : Machine σ) {stop : Error → Prop} {m : Movie}
  {o a : ObjectId} {names : List String}

theorem toText_string_leads (text : String) : (machine.toText (.string text)).Leads m text m :=
  .of_yields (machine.toText_yields text)

theorem toInt32_leads (x : Number) : (machine.toInt32 (.number x)).Leads m x.toInt32 m :=
  .bind (.of_yields (machine.toNumber_yields rfl)) .pure

/-- No names means every slot. -/
theorem slotNames_nullish {v : Value} (hv : v.isNullish) :
    (Builtin.slotNames machine v).Leads m none m := by
  rw [Builtin.slotNames, if_pos hv]
  exact .pure

/-- A text lists the names between its commas. -/
theorem slotNames_text (text : String) :
    (Builtin.slotNames machine (.string text)).Leads m (some (Text.split ',' text)) m :=
  .movie (.bind (machine.toText_string_leads text) .pure)

/-- An array of texts lists them, unless the run is stopped while it polls. -/
theorem slotNames_array (h : m.ListsTexts a names)
    (hlimit : names.length ≤ m.settings.maxElements)
    (hpolls : timeoutStride < names.length → machine.Polls stop m) :
    (Builtin.slotNames machine (.object a)).LeadsUnless stop m (some names) m := by
  have helements := elements_leadsUnless h.plain fun hlong =>
    hpolls (by rwa [h.readLength_eq hlimit] at hlong)
  rw [h.elementsOf_eq hlimit] at helements
  have htexts : Run.Answers ((names.map Value.string).mapM machine.toText) m
      ((names.map Value.string).map m.settings.textOf) := by
    refine .mapM fun v hv => ?_
    obtain ⟨name, _, rfl⟩ := List.mem_map.mp hv
    exact machine.toText_string_leads name
  have hsame : (names.map Value.string).map m.settings.textOf = names := by
    rw [List.map_map]
    exact List.map_id names
  rw [hsame] at htexts
  refine .movie ?_
  rw [show (Value.object a).object? = some a from rfl, Option.filter_some, if_pos h.plain.isArray]
  exact .bind helements (.of_leads (.bind htexts .pure))

/-- A long array is not read to its end by a run that is stopped. -/
theorem slotNames_stops {error : Error} (hstops : machine.checkTimeout.Stops m error)
    (ha : m.PlainArray a) (hlong : timeoutStride < m.readLength a) :
    (Builtin.slotNames machine (.object a)).Stops m error := by
  refine .movie ?_
  rw [show (Value.object a).object? = some a from rfl, Option.filter_some, if_pos ha.isArray]
  exact (elements_stops hstops ha hlong).bind _

/-- Before the names are known, nothing is changed. -/
theorem adjustSlots_stops {v : Value} {error : Error}
    (hnames : (Builtin.slotNames machine v).Stops m error) (rest : List Value) :
    (Builtin.adjustSlots machine (.object o :: v :: rest)).Stops m error :=
  Run.Stops.bind hnames _

/-- Once the names are known, the call changes the attributes and does nothing else. -/
theorem adjustSlots_leadsUnless {v : Value} {names : Option (List String)} {x y : Number}
    (hnames : (Builtin.slotNames machine v).LeadsUnless stop m names m) (rest : List Value) :
    (Builtin.adjustSlots machine (.object o :: v :: .number x :: .number y :: rest)).LeadsUnless
      stop m .undefined (Movie.setFlags o names (Builtin.scriptFlags x.toInt)
        (Builtin.scriptFlags y.toInt) m).2 := by
  have hchange : Run.Leads (do
      let set ← machine.toInt32 (.number x)
      let clear ← machine.toInt32 (.number y)
      Movie.setFlags o names (Builtin.scriptFlags set) (Builtin.scriptFlags clear)
      return .undefined : Run σ Value) m .undefined (Movie.setFlags o names
        (Builtin.scriptFlags x.toInt) (Builtin.scriptFlags y.toInt) m).2 := by
    rw [← Builtin.scriptFlags_toInt32, ← Builtin.scriptFlags_toInt32]
    exact .bind (machine.toInt32_leads x) (.bind (machine.toInt32_leads y)
      (.bind (.of_yields (.edit (Movie.setFlags o names _ _))) .pure))
  exact .bind hnames (.of_leads hchange)

/-- The number one asks for the flag that hides a slot. -/
theorem scriptFlags_hide : Builtin.scriptFlags (1 : Number).toInt = { dontEnum := true } ∧
    Builtin.scriptFlags (0 : Number).toInt = {} := by
  decide +kernel

namespace Interrupted

/-- An embedder whose interpreter never lets a long computation go on. -/
def host : Host Unit := fun _ => { Host.refuse with checkTimeout := fun _ => throw .timeout }

/-- More names than are read between two checks, all of them that of the first element. -/
def list : List String := List.replicate (timeoutStride + 1) (indexKey 0)

theorem checkTimeout_stops {m : Movie} (hm : m.executor = some ⟨0⟩) :
    (host.machine 1).checkTimeout.Stops m .timeout := by
  refine .movie ?_
  rw [hm]
  exact fun e => ⟨e, rfl⟩

theorem polls (m : Movie) : (host.machine 1).Polls (· = .timeout) m :=
  fun _ _ e => ⟨e, .inr ⟨.timeout, rfl, rfl⟩⟩

/-- Makes a new array of texts, and asks the interpreter from now on. -/
def createOf (texts : List String) : Edit ObjectId := do
  Movie.installExecutor ⟨0⟩
  Movie.createArray (texts.map .string)

def create : Edit ObjectId := createOf list

theorem exists_createOf {m : Movie} (hm : m.heap.Arena) (texts : List String) :
    ∃ array m', createOf texts m = (array, m') ∧ m'.Created array (texts.map .string) ∧
      m'.executor = some ⟨0⟩ ∧ m'.settings = m.settings := by
  have harena : (Movie.installExecutor ⟨0⟩ m).2.heap.Arena := hm
  obtain ⟨array, m', hnew, hcreated, hgrows⟩ :=
    Movie.exists_created harena (texts.map .string)
  exact ⟨array, m', hnew, hcreated, hgrows.executor_eq, hgrows.settings_eq⟩

end Interrupted

/-- A change of attributes leaves everything as it is but the attributes of the own slots whose keys
are listed, all of them without a list: those that scripts may change are cleared and then set, and
an accessor never becomes read-only. So neither the order of the names nor their repetition matters,
and the same change has no effect a second time. A call with numbers makes the change for their
three lowest bits. It makes the same change whether the names are given as one text with commas
between them, if there are any and none has a comma, or as an array of at most 1024 texts. While a
longer array is read the interpreter may stop the call: then nothing has changed. -/
theorem change_attributes (m : Movie) (o : ObjectId) :
    (∀ names set clear,
      m.Adjusts (Movie.setFlags o names set clear m).2 o names set clear ∧
      (Movie.setFlags o names set clear (Movie.setFlags o names set clear m).2).2 =
        (Movie.setFlags o names set clear m).2) ∧
    (∀ names names' : List String, (∀ name, name ∈ names ↔ name ∈ names') → ∀ set clear,
      (Movie.setFlags o (some names) set clear m).2 =
        (Movie.setFlags o (some names') set clear m).2) ∧
    ∀ this x y rest,
      (∀ v : Value, v.isNullish → (Builtin.run machine .setFlags this
        (.object o :: v :: .number x :: .number y :: rest)).Leads m .undefined
        (Movie.setFlags o none (Builtin.scriptFlags x.toInt) (Builtin.scriptFlags y.toInt) m).2) ∧
      (∀ names, names ≠ [] → (∀ name ∈ names, ',' ∉ name.toList) → (Builtin.run machine .setFlags
        this (.object o :: .string (",".intercalate names) :: .number x :: .number y :: rest)).Leads
        m .undefined (Movie.setFlags o (some names) (Builtin.scriptFlags x.toInt)
          (Builtin.scriptFlags y.toInt) m).2) ∧
      ∀ names a, m.ListsTexts a names → names.length ≤ m.settings.maxElements →
        (names.length ≤ 1024 → (Builtin.run machine .setFlags this
          (.object o :: .object a :: .number x :: .number y :: rest)).Leads m .undefined
          (Movie.setFlags o (some names) (Builtin.scriptFlags x.toInt)
            (Builtin.scriptFlags y.toInt) m).2) ∧
        ∀ stop, machine.Polls stop m → (Builtin.run machine .setFlags this
          (.object o :: .object a :: .number x :: .number y :: rest)).LeadsUnless stop m .undefined
          (Movie.setFlags o (some names) (Builtin.scriptFlags x.toInt)
            (Builtin.scriptFlags y.toInt) m).2 := by
  refine ⟨fun names set clear => ⟨Movie.setFlags_adjusts names set clear,
    Movie.setFlags_setFlags names set clear⟩, fun names names' hsame set clear => ?_,
    fun this x y rest => ⟨fun v hv => ?_, fun names hne hnames => ?_,
      fun names a hlist hlimit => ⟨fun hshort => ?_, fun stop hpolls => ?_⟩⟩⟩
  · refine Movie.setFlags_congr (fun key _ => ?_) set clear
    simp only [Movie.Listed, Option.some.injEq, forall_eq', List.mem_map, hsame]
  · exact (machine.adjustSlots_leadsUnless (.of_leads (machine.slotNames_nullish hv)) rest).leads
  · have htext := machine.slotNames_text (m := m) (",".intercalate names)
    rw [Text.split_intercalate rfl hne hnames] at htext
    exact (machine.adjustSlots_leadsUnless (.of_leads htext) rest).leads
  · have hnames : (Builtin.slotNames machine (.object a)).LeadsUnless (fun _ => False) m
        (some names) m :=
      machine.slotNames_array hlist hlimit fun hlong => absurd hshort (Nat.not_le_of_lt hlong)
    exact (machine.adjustSlots_leadsUnless hnames rest).leads
  · have hnames := machine.slotNames_array hlist hlimit fun _ => hpolls
    exact machine.adjustSlots_leadsUnless hnames rest

open Interrupted in
/-- An array of two names hides its own elements, whichever way the names are given. An interpreter
that stops whatever it is asked about is not asked. -/
theorem change_attributes_pair :
    ["0", "1"] ≠ [] ∧ (∀ name ∈ ["0", "1"], ',' ∉ name.toList) ∧ ["0", "1"].length ≤ 1024 ∧
    ∃ array movie changed, createOf ["0", "1"] (Movie.new {}) = (array, movie) ∧
      movie.ListsTexts array ["0", "1"] ∧ ["0", "1"].length ≤ movie.settings.maxElements ∧
      (host.machine 1).checkTimeout.Stops movie .timeout ∧
      (host.machine 1).Polls (· = .timeout) movie ∧
      Builtin.run (host.machine 1) .setFlags .undefined
        [.object array, .string (",".intercalate ["0", "1"]), .number 1, .number 0] ⟨movie, ()⟩ =
          (.ok .undefined, ⟨changed, ()⟩) ∧
      Builtin.run (host.machine 1) .setFlags .undefined
        [.object array, .object array, .number 1, .number 0] ⟨movie, ()⟩ =
          (.ok .undefined, ⟨changed, ()⟩) ∧
      movie.Adjusts changed array (some ["0", "1"]) { dontEnum := true } {} := by
  have hnames : ∀ name ∈ ["0", "1"], ',' ∉ name.toList := by decide
  have hne : ["0", "1"] ≠ [] := List.cons_ne_nil _ _
  have hshort : ["0", "1"].length ≤ 1024 := by decide
  obtain ⟨array, movie, hnew, hcreated, hexecutor, hsettings⟩ :=
    exists_createOf (Session.reached_new {}).arena ["0", "1"]
  have hlist := hcreated.listsTexts (by decide)
  have hlimit : ["0", "1"].length ≤ movie.settings.maxElements := by
    simp [hsettings, Movie.settings_new]
  obtain ⟨hchange, -, hcall⟩ := (host.machine 1).change_attributes movie array
  obtain ⟨-, htext, hlisted⟩ := hcall .undefined 1 0 []
  obtain ⟨_, htext⟩ := htext ["0", "1"] hne hnames ()
  obtain ⟨_, hlisted⟩ := (hlisted ["0", "1"] array hlist hlimit).1 hshort ()
  rw [scriptFlags_hide.1, scriptFlags_hide.2] at htext hlisted
  exact ⟨hne, hnames, hshort, array, movie, _, hnew, hlist, hlimit, checkTimeout_stops hexecutor,
    polls movie, htext, hlisted, (hchange (some ["0", "1"]) { dontEnum := true } {}).1⟩

open Interrupted in
/-- The reading of an array of names may be stopped, while a text of the same names is not read. -/
theorem change_attributes_stopped :
    list ≠ [] ∧ (∀ name ∈ list, ',' ∉ name.toList) ∧ ∃ array m changed,
      create (Movie.new {}) = (array, m) ∧ m.ListsTexts array list ∧
      list.length ≤ m.settings.maxElements ∧
      Builtin.run (host.machine 1) .setFlags .undefined
        [.object array, .string (",".intercalate list), .number 1, .number 0] ⟨m, ()⟩ =
          (.ok .undefined, ⟨changed, ()⟩) ∧
      Builtin.run (host.machine 1) .setFlags .undefined
        [.object array, .object array, .number 1, .number 0] ⟨m, ()⟩ =
          (.error .timeout, ⟨m, ()⟩) ∧
      changed ≠ m := by
  have hcount : list.length = timeoutStride + 1 := List.length_replicate
  have hfirst : 0 < list.length := by omega
  have hne : list ≠ [] := List.ne_nil_of_length_pos hfirst
  have hnames : ∀ name ∈ list, ',' ∉ name.toList := by
    intro name hname
    rw [List.eq_of_mem_replicate hname]
    decide
  obtain ⟨array, m, hnew, hcreated, hexecutor, hsettings⟩ :=
    exists_createOf (Session.reached_new {}).arena list
  have hlimit : list.length ≤ m.settings.maxElements := by
    rw [hcount, hsettings, Movie.settings_new]
    decide
  have hlist := hcreated.listsTexts (by rw [hcount]; decide)
  have hlong : timeoutStride < m.readLength array := by
    rw [Movie.readLength, hlist.length]
    omega
  have hstops := (host.machine 1).adjustSlots_stops (o := array)
    ((host.machine 1).slotNames_stops (checkTimeout_stops hexecutor) hlist.plain hlong)
    [.number 1, .number 0]
  have htext := (host.machine 1).slotNames_text (m := m) (",".intercalate list)
  rw [Text.split_intercalate rfl hne hnames] at htext
  have hchange := ((host.machine 1).adjustSlots_leadsUnless (o := array) (x := 1) (y := 0)
    (.of_leads htext) []).leads
  rw [scriptFlags_hide.1, scriptFlags_hide.2] at hchange
  obtain ⟨_, hchange⟩ := hchange ()
  obtain ⟨_, hstops⟩ := hstops ()
  have hslot := hcreated.slot?_indexKey (i := 0) (by rw [List.length_map]; exact hfirst)
  have hlisted : m.Listed (some list) (indexKey 0) := by
    intro list' hlist'
    cases hlist'
    exact List.mem_map.mpr ⟨indexKey 0, List.mem_replicate.mpr ⟨by decide, rfl⟩,
      m.settings.normalize_of_lower (by decide +kernel)⟩
  refine ⟨hne, hnames, array, m, _, hnew, hlist, hlimit, hchange, hstops,
    Movie.setFlags_ne hslot hlisted fun hflags => ?_⟩
  cases hflags

end Machine

end ActionScript
