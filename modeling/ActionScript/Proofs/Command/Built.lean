import ActionScript.Proofs.Command.Written
import ActionScript.Proofs.Session.ArrayLength

/-! # Literals as they are built

Building a literal adds arrays to a heap and changes nothing that was there (`Movie.GrowsTo`). Its
value shows the literal: an array of the literal is an array of the heap whose elements show the
elements of the literal (`Literal.built_build`). Reading the elements of the arrays on a machine
then gives the literal back (`Literal.Shown.unfolds`). -/

namespace ActionScript

/-! ## Growing movies -/

namespace Movie

/-- One movie has the objects of the other as they are there, and maybe more. -/
structure GrowsTo (m m' : Movie) : Prop where
  otherwise : m' = { m with heap := m'.heap }
  kept : ∀ {o x}, m.heap.get? o = some x → m'.heap.get? o = some x

namespace GrowsTo

variable {m m₁ m₂ : Movie}

theorem refl (m : Movie) : m.GrowsTo m := ⟨rfl, id⟩

theorem trans (h₁ : m.GrowsTo m₁) (h₂ : m₁.GrowsTo m₂) : m.GrowsTo m₂ := by
  refine ⟨?_, fun hx => h₂.kept (h₁.kept hx)⟩
  rw [h₂.otherwise, h₁.otherwise]

theorem settings_eq (h : m.GrowsTo m₁) : m₁.settings = m.settings := by rw [h.otherwise]

theorem intrinsics_eq (h : m.GrowsTo m₁) : m₁.intrinsics = m.intrinsics := by rw [h.otherwise]

theorem executor_eq (h : m.GrowsTo m₁) : m₁.executor = m.executor := by rw [h.otherwise]

end GrowsTo

/-- The object of an array that was created with the given elements. -/
def arrayOf (m : Movie) (vs : List Value) : Object where
  properties := (elementSlots vs).insert lengthKey
    (m.spelled lengthKey (.data (.number (.ofNat vs.length)) .permanent))
  prototype := some m.intrinsics.arrayPrototype
  kind := .array

/-- The object is an array as it was created. -/
def Created (m : Movie) (a : ObjectId) (vs : List Value) : Prop :=
  m.heap.get? a = some (m.arrayOf vs)

/-- A grown movie makes the same arrays. -/
theorem GrowsTo.arrayOf_eq {m m' : Movie} (h : m.GrowsTo m') (vs : List Value) :
    m'.arrayOf vs = m.arrayOf vs := by
  rw [h.otherwise]
  rfl

/-- An array that was created is there in every movie grown from that one. -/
theorem Created.growsTo {m m' : Movie} {a : ObjectId} {vs : List Value} (ha : m.Created a vs)
    (h : m.GrowsTo m') : m'.Created a vs := by
  rw [Created, h.arrayOf_eq]
  exact h.kept ha

section Creation

variable {m : Movie} (ha : m.heap.Arena) (vs : List Value)
include ha

/-- A new array gets its elements and then its length. -/
private theorem createArray_snd : (createArray vs m).2 =
    reslot { m with heap := (m.heap.allocate (m.freshArray vs)).2 } (createArray vs m).1
      (·.insert lengthKey
        (m.spelled lengthKey (.data (.number (.ofNat vs.length)) .permanent))) := by
  have hget := (ha.get?_allocate (m.freshArray vs) _).trans (if_pos rfl)
  rw [createArray_eq]
  refine setLength_of_none ?_ vs.length
  exact (Heap.slot?_eq hget lengthKey).trans (find?_elementSlots_lengthKey vs)

private theorem get?_createArray (o : ObjectId) : (createArray vs m).2.heap.get? o =
    if o = (createArray vs m).1 then some (m.arrayOf vs) else m.heap.get? o := by
  rw [createArray_snd ha, get?_reslot]
  have hget : (m.heap.allocate (m.freshArray vs)).2.get? o =
      if o = (createArray vs m).1 then some (m.freshArray vs) else m.heap.get? o :=
    ha.get?_allocate (m.freshArray vs) o
  split
  · rename_i ho
    rw [hget, if_pos ho]
    rfl
  · rename_i ho
    rw [hget, if_neg ho]

/-- Creating an array grows a movie. -/
theorem growsTo_createArray : m.GrowsTo (createArray vs m).2 := by
  refine ⟨?_, fun {o x} hx => ?_⟩
  · rw [createArray_snd ha]
    rfl
  · have hfresh := ha.not_isLive_allocate (m.freshArray vs)
    rw [get?_createArray ha, if_neg]
    · exact hx
    · rintro rfl
      exact hfresh (Heap.isLive_of_get? hx)

/-- The array is created with its values. -/
theorem created_createArray : (createArray vs m).2.Created (createArray vs m).1 vs := by
  rw [Created, get?_createArray ha, if_pos rfl, (growsTo_createArray ha vs).arrayOf_eq]

/-- The heap stays an arena. -/
theorem arena_createArray : (createArray vs m).2.heap.Arena := by
  rw [createArray_snd ha]
  exact (ha.allocate _).modify _ _

end Creation

end Movie

/-! ## Values that show a literal -/

namespace Literal

mutual

/-- The most elements that an array of a literal has. -/
def widest : Literal → Nat
  | .primitive _ => 0
  | .array elements => max elements.length (widestOf elements)

def widestOf : List Literal → Nat
  | [] => 0
  | l :: rest => max (widest l) (widestOf rest)

end

mutual

/-- Whether the leaves of a literal are primitive values. -/
def isPure : Literal → Bool
  | .primitive v => !v.isObject
  | .array elements => arePure elements

def arePure : List Literal → Bool
  | [] => true
  | l :: rest => isPure l && arePure rest

end

mutual

/-- A value shows a literal, where `E a vs` tells that the array `a` has the elements `vs`. -/
inductive Shown (E : ObjectId → List Value → Prop) : Literal → Value → Prop
  | primitive {v : Value} : v.isObject = false → Shown E (.primitive v) v
  | array {a : ObjectId} {vs : List Value} {elements : List Literal} : E a vs →
    AllShown E elements vs → Shown E (.array elements) (.object a)

/-- The values show the literals one by one. -/
inductive AllShown (E : ObjectId → List Value → Prop) : List Literal → List Value → Prop
  | nil : AllShown E [] []
  | cons {l : Literal} {v : Value} {elements : List Literal} {vs : List Value} : Shown E l v →
    AllShown E elements vs → AllShown E (l :: elements) (v :: vs)

end

variable {E E' : ObjectId → List Value → Prop}

/-- There are as many values as literals shown by them. -/
theorem AllShown.length_eq : ∀ {elements : List Literal} {vs : List Value},
    AllShown E elements vs → vs.length = elements.length
  | _, _, .nil => rfl
  | _, _, .cons _ h => congrArg (· + 1) h.length_eq

mutual

/-- What shows a literal in one way shows it in a weaker one, if arrays as wide as it do. -/
theorem Shown.imp : ∀ {l : Literal} {v : Value}, Shown E l v →
    (∀ {a vs}, vs.length ≤ l.widest → E a vs → E' a vs) → Shown E' l v
  | _, _, .primitive hv, _ => .primitive hv
  | _, _, .array ha h, himp => .array (himp (by rw [h.length_eq, widest]; exact le_max_left _ _) ha)
    (h.imp fun hle => himp (hle.trans (by rw [widest]; exact le_max_right _ _)))

theorem AllShown.imp : ∀ {elements : List Literal} {vs : List Value}, AllShown E elements vs →
    (∀ {a vs}, vs.length ≤ widestOf elements → E a vs → E' a vs) → AllShown E' elements vs
  | _, _, .nil, _ => .nil
  | _, _, .cons h hrest, himp =>
    .cons (h.imp fun hle => himp (hle.trans (by rw [widestOf]; exact le_max_left _ _)))
      (hrest.imp fun hle => himp (hle.trans (by rw [widestOf]; exact le_max_right _ _)))

end

/-! ## Building -/

/-- What an edit of the movie `m` that builds a literal leaves. -/
structure Built (m : Movie) (l : Literal) (v : Value) (m' : Movie) : Prop where
  arena : m'.heap.Arena
  growsTo : m.GrowsTo m'
  shown : Shown m'.Created l v

mutual

/-- A pure literal builds a value that shows it, by induction on the literal. -/
theorem built_build : ∀ l : Literal, l.isPure → ∀ {m : Movie}, m.heap.Arena →
    Built m l (l.build m).1 (l.build m).2
  | .primitive v, hpure, m, ha => by
    rw [isPure, Bool.not_eq_true'] at hpure
    exact ⟨ha, .refl m, .primitive hpure⟩
  | .array elements, hpure, m, ha => by
    obtain ⟨ha₁, hgrows, hshown⟩ := built_buildAll elements hpure ha
    have hgrows' := Movie.growsTo_createArray ha₁ (buildAll elements m).1
    refine ⟨Movie.arena_createArray ha₁ _, hgrows.trans hgrows', ?_⟩
    exact .array (Movie.created_createArray ha₁ _) (hshown.imp fun _ h => h.growsTo hgrows')

/-- The elements are built one after the other, each in the movie of those before. -/
theorem built_buildAll : ∀ elements : List Literal, arePure elements → ∀ {m : Movie},
    m.heap.Arena → (buildAll elements m).2.heap.Arena ∧ m.GrowsTo (buildAll elements m).2 ∧
      AllShown (buildAll elements m).2.Created elements (buildAll elements m).1
  | [], _, m, ha => ⟨ha, .refl m, .nil⟩
  | l :: rest, hpure, m, ha => by
    rw [arePure, Bool.and_eq_true] at hpure
    obtain ⟨ha₁, hgrows₁, hshown₁⟩ := built_build l hpure.1 ha
    obtain ⟨ha₂, hgrows₂, hshown₂⟩ := built_buildAll rest hpure.2 ha₁
    exact ⟨ha₂, hgrows₁.trans hgrows₂, .cons (hshown₁.imp fun _ h => h.growsTo hgrows₂) hshown₂⟩

end

/-! ## Leaves of what is read -/

theorem isObject_ofWord (s : Settings) (word : String) : (ofWord s word).isObject = false := by
  rw [ofWord]
  dsimp only
  split_ifs <;> rfl

private theorem exists_of_bind_eq_ok {ε α β : Type} {x : Except ε α} {f : α → Except ε β} {b : β}
    (h : x >>= f = .ok b) : ∃ a, x = .ok a ∧ f a = .ok b := by
  cases x with
  | error e => cases h
  | ok a => exact ⟨a, rfl, h⟩

/-- What is read is pure, by induction on the depth that is left. -/
theorem isPure_of_read (s : Settings) (n : Nat) :
    (∀ {cs l rest}, read s n cs = .ok (l, rest) → l.isPure) ∧
      ∀ {cs elements rest}, readElements s n cs = .ok (elements, rest) → arePure elements := by
  induction n with
  | zero =>
    constructor
    · intro cs l rest h
      cases h
    · intro cs elements rest h
      cases h
  | succ n ih =>
    constructor
    · intro cs l rest h
      rw [read] at h
      split at h
      · cases h
      · split at h
        · cases h
          rfl
        · obtain ⟨⟨elements, cs⟩, hread, h⟩ := exists_of_bind_eq_ok h
          cases h
          exact ih.2 hread
      · split at h
        · cases h
          rfl
        · cases h
      · cases h
        rw [isPure, isObject_ofWord]
        rfl
    · intro cs elements rest h
      rw [readElements] at h
      obtain ⟨⟨l, cs⟩, hread, h⟩ := exists_of_bind_eq_ok h
      have hl := ih.1 hread
      dsimp only at h
      split at h
      · obtain ⟨⟨rest, cs⟩, hread, h⟩ := exists_of_bind_eq_ok h
        cases h
        rw [arePure, hl, ih.2 hread]
        rfl
      · cases h
        rw [arePure, hl]
        rfl
      · cases h

/-- A literal that is read has primitive values at its leaves. -/
theorem isPure_of_parse {s : Settings} {cs : List Char} {l : Literal} (h : parse s cs = .ok l) :
    l.isPure := by
  obtain ⟨⟨l', rest⟩, hread, h⟩ := exists_of_bind_eq_ok h
  dsimp only at h
  split at h
  · cases h
    exact (isPure_of_read s _).1 hread
  · cases h

end Literal

/-! ## Elements of created arrays -/

theorem Number.toUInt32_ofNat_le (n : Nat) : (Number.ofNat n).toUInt32 ≤ n := by
  rcases Nat.lt_or_ge n (2 ^ 53) with hn | hn
  · rw [Number.toUInt32_eq, Number.toInt_ofNat hn]
    omega
  · exact (Number.toUInt32_lt _).le.trans (le_trans (by decide) hn)

/-- How many elements of a new array of length `n` are read in one pass. -/
def Settings.readCount (s : Settings) (n : Nat) : Nat := min (Number.ofNat n).toUInt32 s.maxElements

theorem Settings.readCount_le (s : Settings) (n : Nat) : s.readCount n ≤ n :=
  (min_le_left _ _).trans (Number.toUInt32_ofNat_le n)

/-- Up to the bound on elements an array is read in full. -/
theorem Settings.readCount_eq {s : Settings} {n : Nat} (h : n ≤ min s.maxElements 0xffffffff) :
    s.readCount n = n := by
  have hn : n ≤ 0xffffffff := h.trans (min_le_right _ _)
  rw [readCount, Number.toUInt32_eq, Number.toInt_ofNat (by omega)]
  omega

variable {σ : Type} [Journal σ]

/-- A list of runs that leave the movie yields the list of their results. -/
theorem Run.Yields.mapM {α β : Type} {f : α → Run σ β} {g : α → β} {m : Movie} {xs : List α}
    (h : ∀ x ∈ xs, (f x).Yields m (g x) m) : Run.Yields (xs.mapM f) m (xs.map g) m := by
  induction xs with
  | nil => exact .pure
  | cons x xs ih =>
    rw [List.mapM_cons]
    exact .bind (h x List.mem_cons_self)
      (.bind (ih fun y hy => h y (List.mem_cons_of_mem _ hy)) .pure)

namespace Movie.Created

variable {m : Movie} {a : ObjectId} {vs : List Value} (ha : m.Created a vs)
include ha

theorem slot?_lengthKey : m.heap.slot? a lengthKey =
    some (m.spelled lengthKey (.data (.number (.ofNat vs.length)) .permanent)) := by
  rw [Heap.slot?_eq ha, arrayOf, Table.find?_insert, if_pos rfl]

theorem slot?_indexKey {i : Nat} (hi : i < vs.length) :
    m.heap.slot? a (indexKey i) = some (.data vs[i] {}) := by
  have hmem : (vs[i], i) ∈ vs.zipIdx := by
    rw [List.mk_mem_zipIdx_iff_getElem?, List.getElem?_eq_getElem hi]
  rw [Heap.slot?_eq ha, arrayOf, Table.find?_insert, if_neg (indexKey_ne_lengthKey i),
    Table.find?_eq_some_iff]
  exact List.mem_map_of_mem hmem

/-- Reading an element of a created array gives its value. -/
theorem readElement_yields (machine : Machine σ) (hexecutor : m.executor = none) {i : Nat}
    (hi : i < vs.length) : (machine.readElement a i).Yields m vs[i] m := by
  have hkey := machine.readKey_yields (Heap.find?_of_slot? (ha.slot?_indexKey hi)) rfl
  have htimeout : machine.checkTimeout.Yields m () m := by
    refine .movie ?_
    rw [hexecutor]
    exact .pure
  rw [Machine.readElement]
  split
  · exact .bind htimeout hkey
  · exact hkey

/-- Reading the elements gives the values up to the bound. -/
theorem elements_yields (machine : Machine σ) (hexecutor : m.executor = none) :
    (machine.elements a).Yields m (vs.take (m.settings.readCount vs.length)) m := by
  have hlength : (machine.read a lengthKey).Yields m (.number (.ofNat vs.length)) m := by
    have hfind := Heap.find?_of_slot? ha.slot?_lengthKey
    rw [← m.normalize_lengthKey] at hfind
    have hread := machine.read_yields lengthKey hfind (by rw [isData_spelled]; rfl)
    rwa [value_spelled] at hread
  have hcount := m.settings.readCount_le vs.length
  have htake : (List.range (m.settings.readCount vs.length)).map (fun i => vs[i]?.getD .undefined) =
      vs.take (m.settings.readCount vs.length) := by
    refine List.ext_getElem (by simpa using hcount) fun i hi hi' => ?_
    have hi : i < vs.length := by
      rw [List.length_take] at hi'
      omega
    simp [hi]
  rw [← htake]
  refine .bind hlength (.bind (machine.toUInt32_yields rfl) (.movie (.mapM fun i hi => ?_)))
  have hi : i < vs.length := (List.mem_range.mp hi).trans_le hcount
  rw [List.getElem?_eq_getElem hi]
  exact ha.readElement_yields machine hexecutor hi

end Movie.Created

/-! ## The round trip -/

namespace Literal

/-- A value gives a literal back where the elements of its arrays are read on a machine. -/
def Unfolds (machine : Machine σ) (m : Movie) : Literal → Value → Prop :=
  Shown fun a vs => (machine.elements a).Yields m vs m

/-- A value that shows a literal unfolds to it, level by level. -/
theorem Shown.unfolds {m : Movie} {l : Literal} {v : Value} (h : Shown m.Created l v)
    (machine : Machine σ) (hexecutor : m.executor = none)
    (hl : l.widest ≤ min m.settings.maxElements 0xffffffff) : Unfolds machine m l v := by
  refine h.imp fun {a vs} hvs ha => ?_
  have helements := ha.elements_yields machine hexecutor
  rwa [Settings.readCount_eq (hvs.trans hl), List.take_length] at helements

end Literal

end ActionScript
