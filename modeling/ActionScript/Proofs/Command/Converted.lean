import ActionScript.Command.Basic
import ActionScript.Proofs.Command.Built

/-! # Conversions of built literals

A value that shows a literal converts to what the settings and the literal say alone, and the
conversion leaves the movie as it is (`Literal.Shown.convert_yields`). Arrays on a path of nested
arrays are different, because each shows a smaller literal than those around it, so their texts are
never cut (`Literal.Shown.toText_yields`). -/

namespace ActionScript

/-! ## How far an array leads -/

namespace Heap

/-- Handles that are marked, each listed once, are at most as many as the marks. -/
theorem length_le_count {marks : Array Bool} {os : List ObjectId} (hnodup : os.Nodup)
    (hmarked : ∀ o ∈ os, Marked marks o) : os.length ≤ marks.count true := by
  induction os generalizing marks with
  | nil => exact Nat.zero_le _
  | cons o os ih =>
    obtain ⟨hnew, hnodup⟩ := List.nodup_cons.mp hnodup
    obtain ⟨hlt, htrue⟩ := Array.getElem?_eq_some_iff.mp (hmarked o List.mem_cons_self)
    have hcount : (marks.set o.index false hlt).count true = marks.count true - 1 := by
      rw [Array.count_set hlt, htrue]
      rfl
    have hpos : 0 < marks.count true :=
      Array.count_pos_iff.mpr (htrue ▸ Array.getElem_mem hlt)
    have hrest : os.length ≤ (marks.set o.index false hlt).count true :=
      ih hnodup fun p hp => by
        have hne : o.index ≠ p.index := fun h => hnew (index_inj.mp h ▸ hp)
        rw [Marked, Array.getElem?_set_ne hlt hne]
        exact hmarked p (List.mem_cons_of_mem _ hp)
    rw [List.length_cons]
    omega

/-- No more objects than the extent are reached from an array. -/
theorem length_le_extent {h : Heap} {a : ObjectId} {os : List ObjectId} (hnodup : os.Nodup)
    (hreach : ∀ o ∈ os, h.Reaches (· ∈ [a]) o) : os.length ≤ h.extent a :=
  length_le_count hnodup fun o ho => marked_iff_reaches.mpr (hreach o ho)

end Heap

/-! ## One literal for a value -/

theorem Movie.arrayOf_inj {m : Movie} {vs ws : List Value} (h : m.arrayOf vs = m.arrayOf ws) :
    vs = ws := by
  have hvalues : ∀ vs : List Value, (elementSlots vs).values.map Property.value = vs := fun vs => by
    rw [Table.values, elementSlots, List.map_map, List.map_map]
    exact List.zipIdx_map_fst 0 vs
  have hentries : ∀ vs : List Value, (m.arrayOf vs).properties.values.dropLast =
      (elementSlots vs).values := fun vs => by
    have hnew : lengthKey ∉ (elementSlots vs).keys :=
      Table.find?_eq_none_iff.mp (find?_elementSlots_lengthKey vs)
    rw [arrayOf, Table.insert, dif_neg hnew, Table.values, Table.append, List.map_append]
    exact List.dropLast_concat
  rw [← hvalues vs, ← hvalues ws, ← hentries, ← hentries, h]

theorem Movie.Created.eq {m : Movie} {a : ObjectId} {vs ws : List Value} (h : m.Created a vs)
    (h' : m.Created a ws) : vs = ws :=
  Movie.arrayOf_inj (Option.some.inj (h.symm.trans h'))

namespace Literal

variable {E : ObjectId → List Value → Prop}

mutual

/-- A value shows one literal at most, by induction on the literal. -/
theorem Shown.eq (hE : ∀ {a vs ws}, E a vs → E a ws → vs = ws) : ∀ {l l' : Literal} {v : Value},
    Shown E l v → Shown E l' v → l = l'
  | _, _, _, .primitive _, .primitive _ => rfl
  | _, _, _, .array ha h, .array ha' h' => by
    obtain rfl := hE ha ha'
    rw [h.eq hE h']
  | _, _, _, .primitive hv, .array _ _ => nomatch hv
  | _, _, _, .array _ _, .primitive hv => nomatch hv

theorem AllShown.eq (hE : ∀ {a vs ws}, E a vs → E a ws → vs = ws) :
    ∀ {ls ls' : List Literal} {vs : List Value}, AllShown E ls vs → AllShown E ls' vs → ls = ls'
  | _, _, _, .nil, .nil => rfl
  | _, _, _, .cons h hrest, .cons h' hrest' => by rw [h.eq hE h', hrest.eq hE hrest']

end

/-! ## Texts and numbers of literals -/

mutual

/-- The text of a literal: that of a primitive value, or the texts of the elements that are read
with commas between them. -/
def text (s : Settings) : Literal → String
  | .primitive v => s.textOf v
  | .array elements => ",".intercalate ((texts s elements).take (s.readCount elements.length))

def texts (s : Settings) : List Literal → List String
  | [] => []
  | l :: rest => text s l :: texts s rest

end

/-- The number of a literal; an array is none. -/
def number (s : Settings) : Literal → Number
  | .primitive v => s.numberOf v
  | .array _ => .nan

def truthy : Literal → Bool
  | .primitive v => v.truthy
  | .array _ => true

/-- The key of a literal. -/
def key (s : Settings) : Literal → String
  | .primitive (.number x) => x.text
  | l => s.normalize (l.text s)

variable {σ : Type} [Journal σ] {m : Movie}

/-- A path of nested arrays that `root` leads to: they are different, and each shows a literal of
at least the given size. -/
structure Path (m : Movie) (root : ObjectId) (path : List ObjectId) (size : Nat) : Prop where
  nodup : path.Nodup
  reached : ∀ p ∈ path, m.heap.Reaches (· ∈ [root]) p
  larger : ∀ p ∈ path, ∃ l, Shown m.Created l (.object p) ∧ size ≤ sizeOf l

theorem Path.nil (m : Movie) (root : ObjectId) (size : Nat) : Path m root [] size :=
  ⟨List.nodup_nil, fun _ => (nomatch ·), fun _ => (nomatch ·)⟩

/-- A path goes down to a smaller literal, so it never meets an array twice. -/
theorem Path.cons {root a : ObjectId} {path : List ObjectId} {size : Nat} {l : Literal}
    (h : Path m root path size) (hl : Shown m.Created l (.object a)) (hsize : sizeOf l < size)
    (ha : m.heap.Reaches (· ∈ [root]) a) : Path m root (a :: path) (sizeOf l) := by
  have hnew : a ∉ path := fun hmem => by
    obtain ⟨l', hl', hsize'⟩ := h.larger a hmem
    have heq : l = l' := Shown.eq (fun h h' => h.eq h') hl hl'
    subst heq
    omega
  refine ⟨List.nodup_cons.mpr ⟨hnew, h.nodup⟩, fun p hp => ?_, fun p hp => ?_⟩
  · rcases List.mem_cons.mp hp with rfl | hp
    · exact ha
    · exact h.reached p hp
  · rcases List.mem_cons.mp hp with rfl | hp
    · exact ⟨l, hl, Nat.le_refl _⟩
    · obtain ⟨l', hl', hsize'⟩ := h.larger p hp
      exact ⟨l', hl', hsize.le.trans hsize'⟩

theorem Shown.isLive {l : Literal} {a : ObjectId} (h : Shown m.Created l (.object a)) :
    m.heap.isLive a := by
  cases h with
  | primitive hv => cases hv
  | array ha _ => exact Heap.isLive_of_get? ha

/-- What an array of a path leads to, its elements lead to as well. -/
theorem reaches_element {root a b : ObjectId} {vs : List Value} (ha : m.Created a vs)
    (hreach : m.heap.Reaches (· ∈ [root]) a) (hb : .object b ∈ vs) (hlive : m.heap.isLive b) :
    m.heap.Reaches (· ∈ [root]) b := by
  obtain ⟨i, hi, hb⟩ := List.mem_iff_getElem.mp hb
  have hslot := ha.slot?_indexKey hi
  rw [Heap.slot?_eq ha, hb] at hslot
  exact .step hreach ha (.value hslot rfl) hlive

mutual

theorem Shown.textWith_yields (machine : Machine σ) (hexecutor : m.executor = none) :
    ∀ {l : Literal} {v : Value}, Shown m.Created l v → ∀ {root path n size},
      Path m root path size → sizeOf l < size →
      (∀ a, v = .object a → m.heap.Reaches (· ∈ [root]) a) →
      m.heap.extent root ≤ path.length + n →
      (machine.textWith (machine.arrayText n path) v).Yields m (l.text m.settings) m
  | _, _, @Shown.primitive _ v hv, root, path, n, size, _, _, _, _ => by
    refine .movie ?_
    cases v with
    | object o => cases hv
    | _ => exact .pure
  | _, _, @Shown.array _ a vs elements ha h, root, path, n, size, hpath, hsize, hreach, hn => by
    have hreach := hreach a rfl
    have hpath' := hpath.cons (.array ha h) hsize hreach
    have hbound := Heap.length_le_extent hpath'.nodup hpath'.reached
    rw [List.length_cons] at hbound
    obtain ⟨n, rfl⟩ : ∃ k, n = k + 1 := ⟨n - 1, by omega⟩
    have hnew : path.contains a = false := by
      rw [Bool.eq_false_iff, ne_eq, List.contains_iff_mem]
      exact (List.nodup_cons.mp hpath'.nodup).1
    have harray : m.heap.isArray a := by
      rw [Heap.isArray, ha]
      rfl
    have htexts := h.texts_yields machine hexecutor (m.settings.readCount vs.length) hpath'
      (by rw [array.sizeOf_spec]; omega) (fun b => reaches_element ha hreach) (n := n)
      (by rw [List.length_cons]; omega)
    refine .movie ?_
    dsimp only
    rw [if_pos harray, Machine.arrayText, hnew, if_neg Bool.false_ne_true, text, ← h.length_eq]
    exact .bind (ha.elements_yields machine hexecutor) (.bind htexts .pure)

theorem AllShown.texts_yields (machine : Machine σ) (hexecutor : m.executor = none) :
    ∀ {elements : List Literal} {vs : List Value}, AllShown m.Created elements vs →
      ∀ {root path n size} (k : Nat), Path m root path size → sizeOf elements ≤ size →
      (∀ a, .object a ∈ vs → m.heap.isLive a → m.heap.Reaches (· ∈ [root]) a) →
      m.heap.extent root ≤ path.length + n →
      ((vs.take k).mapM (machine.textWith (machine.arrayText n path))).Yields m
        ((texts m.settings elements).take k) m
  | _, _, .nil, root, path, n, size, k, _, _, _, _ => by
    rw [List.take_nil, texts, List.take_nil]
    exact .pure
  | _, _, .cons h hrest, root, path, n, size, 0, _, _, _, _ => .pure
  | _, _, .cons h hrest, root, path, n, size, k + 1, hpath, hsize, hreach, hn => by
    rw [List.take_succ_cons, texts, List.take_succ_cons, List.mapM_cons]
    have hhead := h.textWith_yields machine hexecutor hpath
      (by rw [List.cons.sizeOf_spec] at hsize; omega)
      (fun a ha => by subst ha; exact hreach a List.mem_cons_self h.isLive) hn
    have htail := hrest.texts_yields machine hexecutor k hpath
      (by rw [List.cons.sizeOf_spec] at hsize; omega)
      (fun a ha => hreach a (List.mem_cons_of_mem _ ha)) hn
    exact .bind hhead (.bind htail .pure)

end

/-- A value that shows a literal is written as the literal is. -/
theorem Shown.toText_yields {l : Literal} {v : Value} (h : Shown m.Created l v)
    (machine : Machine σ) (hexecutor : m.executor = none) :
    (machine.toText v).Yields m (l.text m.settings) m := by
  refine .movie ?_
  cases v with
  | object a =>
    refine h.textWith_yields machine hexecutor (.nil m a (sizeOf l + 1)) (Nat.lt_succ_self _)
      (fun b hb => ?_) (by rw [List.length_nil]; omega)
    cases hb
    exact .root List.mem_cons_self h.isLive
  | _ =>
    cases h
    exact .movie .pure

end Literal

/-! ## Arrays as numbers -/

namespace Movie

/-- The key of the method that is asked for a number first. -/
def valueOfKey (m : Movie) : String := m.normalize "valueOf"

/-- A movie without an interpreter, in which an array that is asked for its value inherits a method
that gives the array itself. -/
structure Ordinary (m : Movie) : Prop where
  arena : m.heap.Arena
  executor : m.executor = none
  prototype : m.heap.prototype? m.intrinsics.arrayPrototype = some m.intrinsics.objectPrototype
  notOwn : m.heap.slot? m.intrinsics.arrayPrototype m.valueOfKey = none
  method : ∃ f flags, m.heap.slot? m.intrinsics.objectPrototype m.valueOfKey =
      some (m.spelled "valueOf" (.data (.object f) flags)) ∧
    m.heap.callable? f = some (.native "valueOf" (.builtin (.object .self)) none)

section Growth

variable {m m' : Movie} (h : m.GrowsTo m')
include h

theorem GrowsTo.get?_eq {o : ObjectId} (ho : m.heap.isLive o) : m'.heap.get? o = m.heap.get? o := by
  obtain ⟨x, hx⟩ := Heap.isLive_iff.mp ho
  rw [hx, h.kept hx]

theorem Ordinary.growsTo (hm : m.Ordinary) (ha : m'.heap.Arena) : m'.Ordinary := by
  obtain ⟨f, flags, hslot, hcallable⟩ := hm.method
  have hkey : m'.valueOfKey = m.valueOfKey := by rw [valueOfKey, h.otherwise]; rfl
  have hspelled : m'.spelled = m.spelled := by rw [h.otherwise]; rfl
  have harray : m.heap.isLive m.intrinsics.arrayPrototype := Heap.isLive_of_link hm.prototype
  have hobject : m.heap.isLive m.intrinsics.objectPrototype := by
    obtain ⟨x, hx, _⟩ := Option.bind_eq_some_iff.mp hslot
    exact Heap.isLive_of_get? hx
  have hlive : m.heap.isLive f := by
    obtain ⟨x, hx, _⟩ := Option.bind_eq_some_iff.mp hcallable
    exact Heap.isLive_of_get? hx
  refine ⟨ha, ?_, ?_, ?_, f, flags, ?_, ?_⟩
  · rw [h.executor_eq, hm.executor]
  · rw [h.intrinsics_eq, Heap.prototype?, h.get?_eq harray]
    exact hm.prototype
  · rw [h.intrinsics_eq, hkey, Heap.slot?, h.get?_eq harray]
    exact hm.notOwn
  · rw [h.intrinsics_eq, hkey, hspelled, Heap.slot?, h.get?_eq hobject]
    exact hslot
  · rw [Heap.callable?, h.get?_eq hlive]
    exact hcallable

end Growth

theorem valueOfKey_ne (m : Movie) : m.valueOfKey ≠ lengthKey ∧ m.valueOfKey ≠ Heap.protoKey ∧
    ∀ i, indexKey i ≠ m.valueOfKey := by
  have hkey : m.valueOfKey = "valueOf" ∨ m.valueOfKey = "valueof" := by
    rw [valueOfKey, normalize, Settings.normalize]
    split
    · exact .inl rfl
    · exact .inr (by decide)
  rcases hkey with hkey | hkey <;> rw [hkey] <;>
    exact ⟨by decide, by decide, indexKey_ne (by decide) (by decide)⟩

theorem Created.slot?_valueOfKey {m : Movie} {a : ObjectId} {vs : List Value}
    (ha : m.Created a vs) : m.heap.slot? a m.valueOfKey = none := by
  obtain ⟨hlength, _, hindex⟩ := m.valueOfKey_ne
  rw [Heap.slot?_eq ha, arrayOf, Table.find?_insert, if_neg hlength,
    ← Option.not_isSome_iff_eq_none]
  intro hsome
  obtain ⟨i, _, hi⟩ := isSome_find?_elementSlots hsome
  exact hindex i hi.symm

/-- The method that an array inherits. -/
theorem Created.find?_valueOfKey {m : Movie} {a : ObjectId} {vs : List Value}
    (ha : m.Created a vs) (hm : m.Ordinary) :
    ∃ f flags, m.heap.find? a m.valueOfKey =
        some (m.intrinsics.objectPrototype, m.spelled "valueOf" (.data (.object f) flags)) ∧
      m.heap.callable? f = some (.native "valueOf" (.builtin (.object .self)) none) := by
  obtain ⟨f, flags, hslot, hcallable⟩ := hm.method
  obtain ⟨_, hproto, _⟩ := m.valueOfKey_ne
  have hprototype : m.heap.prototype? a = some m.intrinsics.arrayPrototype := by
    rw [Heap.prototype?, ha]
    rfl
  have hown {o : ObjectId} (ho : m.heap.slot? o m.valueOfKey = none) :
      m.heap.own? o m.valueOfKey = none := by
    rw [Heap.own?, ho]
    exact if_neg hproto
  have hchain : ∃ rest, m.heap.chainUpTo (m.heap.slots.size + 3) a =
      a :: m.intrinsics.arrayPrototype :: m.intrinsics.objectPrototype :: rest := by
    simp only [Heap.chainUpTo, hprototype, hm.prototype]
    exact ⟨_, rfl⟩
  obtain ⟨rest, hchain⟩ := hchain
  refine ⟨f, flags, ?_, hcallable⟩
  rw [Heap.find?_eq_findSome? (n := m.heap.slots.size + 3) m.valueOfKey (by omega), hchain,
    List.findSome?_cons, hown ha.slot?_valueOfKey, List.findSome?_cons, hown hm.notOwn,
    List.findSome?_cons, Heap.own?, hslot]
  rfl

end Movie

/-! ## Conversions -/

namespace Literal

variable {σ : Type} [Journal σ] {m : Movie} {l : Literal} {v : Value} {machine : Machine σ}

/-- A value that shows a literal converts to the number the literal has. -/
theorem Shown.toNumber_yields (h : Shown m.Created l v) (hm : m.Ordinary)
    (hself : ∀ this args, machine.builtin (.object .self) this args = pure this) :
    (machine.toNumber v).Yields m (l.number m.settings) m := by
  cases h with
  | primitive hv => exact machine.toNumber_yields hv
  | @array a vs elements ha _ =>
    obtain ⟨f, flags, hfind, hcallable⟩ := ha.find?_valueOfKey hm
    have hread : (machine.read a "valueOf").Yields m (.object f) m := by
      have hread := machine.read_yields "valueOf" hfind (by rw [Movie.isData_spelled]; rfl)
      rwa [Movie.value_spelled] at hread
    have hcall : (machine.call f (.object a) []).Yields m (.object a) m := by
      refine .movie ?_
      rw [hcallable]
      show (machine.builtin (.object .self) (.object a) []).Yields m (.object a) m
      rw [hself]
      exact .pure
    have hdefault : (machine.defaultValue a .number).Yields m (.object a) m := by
      refine .bind hread (.movie ?_)
      have hf : m.heap.isCallable (.object f) := by
        show (m.heap.callable? f).isSome
        rw [hcallable]
        rfl
      rw [if_pos hf]
      exact hcall
    exact .bind hdefault (.movie .pure)

theorem Shown.toKey_yields (h : Shown m.Created l v) (hexecutor : m.executor = none) :
    (machine.toKey v).Yields m (l.key m.settings) m := by
  have htext := h.toText_yields machine hexecutor
  cases h with
  | @primitive v hv =>
    cases v with
    | object o => cases hv
    | number x => exact .pure
    | _ => exact .bind htext (.movie .pure)
  | array ha h => exact .bind htext (.movie .pure)

theorem Shown.truthy_eq (h : Shown m.Created l v) : v.truthy = l.truthy := by
  cases h <;> rfl

/-- What an operation makes of a literal. -/
def apply (s : Settings) (l : Literal) : Operation → String
  | .toString => Text.quote (l.text s)
  | .toNumber => (l.number s).text
  | .toInt32 => toString (l.number s).toInt32
  | .toBoolean => if l.truthy then "true" else "false"
  | .normalize => Text.quote (l.key s)

/-- Each conversion of a value that shows a literal is that of the literal. -/
theorem Shown.convert_yields (h : Shown m.Created l v) (hm : m.Ordinary)
    (hself : ∀ this args, machine.builtin (.object .self) this args = pure this)
    (operation : Operation) :
    (Command.convert machine v operation).Yields m (l.apply m.settings operation) m := by
  cases operation with
  | toString => exact .bind (h.toText_yields machine hm.executor) .pure
  | toNumber => exact .bind (h.toNumber_yields hm hself) .pure
  | toInt32 => exact .bind (.bind (h.toNumber_yields hm hself) .pure) .pure
  | toBoolean =>
    rw [Command.convert, h.truthy_eq]
    exact .pure
  | normalize => exact .bind (h.toKey_yields hm.executor) .pure

end Literal

end ActionScript
