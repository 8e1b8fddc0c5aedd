import ActionScript.Proofs.Command.Converted
import ActionScript.Proofs.Course.Protection
import ActionScript.Proofs.Reading

/-! # Texts of nested arrays

The elements of an array may lead back to it, and they may share arrays. Its text follows the path
of arrays that it is within: an array on the path is empty there, and any other one is written out
in full, as often as it is met (`Movie.rendering`). Arrays of a path are different objects that the
first one leads to, so conversion never goes deeper than there are such objects and comes to an end
(`Machine.toText_of_arrays`). -/

namespace ActionScript

/-! ## What the elements lead to -/

namespace Heap

variable {h : Heap} {o owner : ObjectId} {key : String} {p : Property}

theorem isLive_of_own? (hown : h.own? o key = some p) : h.isLive o := by
  rw [own?, slot?, prototype?] at hown
  rw [isLive]
  cases hget : h.get? o with
  | some x => rfl
  | none => simp [hget] at hown

theorem Nearest.isLive (hp : h.Nearest key o owner p) : h.isLive o := by
  cases hp with
  | own hown => exact isLive_of_own? hown
  | inherited _ hlink _ => exact isLive_of_link hlink

/-- An object leads to the owner of each of its nearest slots. -/
theorem Nearest.reaches {roots : ObjectId → Prop} (hp : h.Nearest key o owner p)
    (ho : h.Reaches roots o) : h.Reaches roots owner := by
  induction hp with
  | own => exact ho
  | inherited _ hlink hrest ih =>
    obtain ⟨x, hx, hproto⟩ := Option.bind_eq_some_iff.mp hlink
    exact ih (.step ho hx (.prototype hproto) hrest.isLive)

end Heap

namespace Movie

variable {m : Movie}

/-- The array itself, its elements, their elements, and so on. -/
inductive Within (m : Movie) (a : ObjectId) : Value → Prop
  | root : Within m a (.object a)
  | element {b v} : Within m a (.object b) → v ∈ m.elementsOf b → Within m a v

/-- A value that is read under a numeral is stored in an object that the array leads to. -/
theorem reaches_valueAt {roots : ObjectId → Prop} {a b : ObjectId} {i : Nat}
    (ha : m.heap.Reaches roots a) (hvalue : m.valueAt a (indexKey i) = .object b)
    (hb : m.heap.isLive b) : m.heap.Reaches roots b := by
  rw [valueAt] at hvalue
  cases hfind : m.heap.find? a (indexKey i) with
  | none => simp [hfind] at hvalue
  | some found =>
    obtain ⟨owner, p⟩ := found
    have hnearest := Heap.find?_eq_some_iff.mp hfind
    have hslot : m.heap.slot? owner (indexKey i) = some p := by
      have hown := hnearest.own?_eq
      rw [Heap.own?, if_neg (indexKey_ne_protoKey i)] at hown
      cases hslot : m.heap.slot? owner (indexKey i) with
      | some p' => rwa [hslot] at hown
      | none => rw [hslot] at hown; cases hown
    obtain ⟨x, hx, hp⟩ := Option.bind_eq_some_iff.mp hslot
    rw [hfind] at hvalue
    exact .step (hnearest.reaches ha) hx (.value hp hvalue) hb

theorem Within.reaches {a b : ObjectId} (hplain : ∀ b, m.Within a (.object b) → m.PlainArray b)
    (hb : m.Within a (.object b)) : m.heap.Reaches (· ∈ [a]) b := by
  generalize hv : Value.object b = v at hb
  induction hb generalizing b with
  | root =>
    cases hv
    exact .root List.mem_cons_self (Heap.isLive_of_isArray (hplain a .root).isArray)
  | element hc hmem ih =>
    subst hv
    obtain ⟨i, _, hvalue⟩ := List.mem_map.mp hmem
    have hlive := Heap.isLive_of_isArray (hplain b (.element hc hmem)).isArray
    exact reaches_valueAt (ih rfl) hvalue hlive

/-! ## The rendering -/

/-- The slots of the heap that are not on a path. -/
def offPath (m : Movie) (path : List ObjectId) : Finset Nat :=
  (Finset.range m.heap.slots.size).filter fun i => ⟨i⟩ ∉ path

/-- An array that is put on the path leaves fewer. -/
theorem card_offPath_cons_lt {a : ObjectId} {path : List ObjectId} (ha : m.heap.isArray a)
    (hnew : a ∉ path) : (m.offPath (a :: path)).card < (m.offPath path).card := by
  apply Finset.card_lt_card
  rw [Finset.ssubset_iff_of_subset]
  · refine ⟨a.index, ?_, by simp [offPath]⟩
    rw [offPath, Finset.mem_filter, Finset.mem_range]
    exact ⟨Heap.index_lt_of_isLive (Heap.isLive_of_isArray ha), hnew⟩
  · intro i hi
    rw [offPath, Finset.mem_filter] at hi ⊢
    exact ⟨hi.1, fun hmem => hi.2 (List.mem_cons_of_mem _ hmem)⟩

/-- The text of a primitive value or an array within the arrays of a path, which are being rendered:
an array on the path is empty, and another one is the list of its elements, rendered with it on the
path as well. -/
def rendering (m : Movie) (path : List ObjectId) : Value → String
  | .object a =>
    if _ : m.heap.isArray a ∧ a ∉ path then
      ",".intercalate ((m.elementsOf a).map fun e => m.rendering (a :: path) e)
    else ""
  | v => m.settings.textOf v
termination_by (m.offPath path).card
decreasing_by
  rename_i h
  exact card_offPath_cons_lt h.1 h.2

theorem rendering_onPath {a : ObjectId} {path : List ObjectId} (ha : a ∈ path) :
    m.rendering path (.object a) = "" := by
  rw [rendering, dif_neg fun h => h.2 ha]

theorem rendering_array {a : ObjectId} {path : List ObjectId} (ha : m.heap.isArray a)
    (hnew : a ∉ path) : m.rendering path (.object a) =
      ",".intercalate ((m.elementsOf a).map (m.rendering (a :: path))) := by
  rw [rendering, dif_pos ⟨ha, hnew⟩]

theorem rendering_primitive {v : Value} (hv : v.isObject = false) (path : List ObjectId) :
    m.rendering path v = m.settings.textOf v := by
  cases v with
  | object => cases hv
  | _ => simp only [rendering]

end Movie

/-! ## Conversion -/

namespace Machine

variable {σ : Type} [Journal σ] (machine : Machine σ) {m : Movie} {a : ObjectId}

theorem arrayText_onPath {path : List ObjectId} (ha : a ∈ path) (n : Nat) :
    machine.arrayText n path a = pure "" := by
  cases n <;> rw [arrayText, if_pos (List.contains_iff_mem.mpr ha)]

/-- Within a path of arrays that `a` leads to, there is room for the rest of them. -/
theorem textWith_answers (hpatient : machine.Patient m)
    (hplain : ∀ b, m.Within a (.object b) → m.PlainArray b) {n : Nat} {path : List ObjectId}
    (hnodup : path.Nodup) (hpath : ∀ b ∈ path, m.Within a (.object b))
    (hn : m.heap.extent a ≤ path.length + n) {v : Value} (hv : m.Within a v) :
    (machine.textWith (machine.arrayText n path) v).Answers m (m.rendering path v) := by
  induction n using Nat.strongRecOn generalizing path v with
  | ind n ih =>
    refine .movie ?_
    cases v with
    | object b =>
      dsimp only
      rw [if_pos (hplain b hv).isArray]
      by_cases hb : b ∈ path
      · rw [machine.arrayText_onPath hb, Movie.rendering_onPath hb]
        exact .pure
      · -- A path without repetition is no longer than the number of objects that `a` leads to.
        have hnodup' : (b :: path).Nodup := List.nodup_cons.mpr ⟨hb, hnodup⟩
        have hpath' : ∀ c ∈ b :: path, m.Within a (.object c) :=
          List.forall_mem_cons.mpr ⟨hv, hpath⟩
        have hroom := Heap.length_le_extent hnodup' fun c hc => (hpath' c hc).reaches hplain
        rw [List.length_cons] at hroom
        obtain ⟨k, rfl⟩ : ∃ k, n = k + 1 := ⟨n - 1, by omega⟩
        have hparts := Run.Answers.mapM fun e he =>
          ih k (Nat.lt_succ_self k) hnodup' hpath' (by rw [List.length_cons]; omega)
            (.element hv he)
        rw [arrayText, if_neg (by simpa using hb), Movie.rendering_array (hplain b hv).isArray hb]
        exact .bind (machine.elements_answers hpatient (hplain b hv)) (.bind hparts .pure)
    | _ =>
      rw [Movie.rendering_primitive rfl]
      exact .pure

/-- Let what an array leads to through elements be primitive values and arrays of primitive length,
all of them read without a call, and let the interpreter, if any, not stop the computation. Then the
array has a text, however its elements are shared and wherever they lead back: its rendering, in
which an array on the way to itself is empty. The movie stays as it is. -/
theorem toText_of_arrays (hpatient : machine.Patient m)
    (hplain : ∀ b, m.Within a (.object b) → m.PlainArray b) :
    (machine.toText (.object a)).Answers m (m.rendering [] (.object a)) := by
  refine .movie ?_
  exact machine.textWith_answers hpatient hplain List.nodup_nil (fun _ hb => nomatch hb)
    (by simp) .root

namespace ArrayRing

/-- Makes an array that contains itself once and another array twice, which leads back to it. -/
def create : Edit (ObjectId × ObjectId) := do
  let inner ← Movie.createArray [.string "x", .undefined]
  let outer ← Movie.createArray [.undefined, .object inner, .null, .object inner]
  Movie.define inner (indexKey 1) (.data (.object outer) {})
  Movie.define outer (indexKey 0) (.data (.object outer) {})
  return (inner, outer)

@[irreducible] def inner : ObjectId := (create (Movie.new {})).1.1

@[irreducible] def outer : ObjectId := (create (Movie.new {})).1.2

/-- A new movie with them. -/
@[irreducible] def movie : Movie := (create (Movie.new {})).2

theorem plain_outer : movie.PlainArray outer ∧
    movie.elementsOf outer = [.object outer, .object inner, .null, .object inner] := by
  decide +kernel

theorem plain_inner : movie.PlainArray inner ∧
    movie.elementsOf inner = [.string "x", .object outer] := by
  decide +kernel

theorem plain_of_within {b : ObjectId} (hb : movie.Within outer (.object b)) :
    movie.PlainArray b := by
  have hcases : b = outer ∨ b = inner := by
    generalize hv : Value.object b = v at hb
    induction hb generalizing b with
    | root =>
      cases hv
      exact .inl rfl
    | element hc hmem ih =>
      subst hv
      rcases ih rfl with rfl | rfl
      · rw [plain_outer.2] at hmem
        simpa [or_comm] using hmem
      · rw [plain_inner.2] at hmem
        exact .inl (by simpa using hmem)
  rcases hcases with rfl | rfl
  · exact plain_outer.1
  · exact plain_inner.1

end ArrayRing

open ArrayRing in
/-- The inner array is written out both times, without the outer one. -/
theorem toText_ring :
    movie.heap.isArray outer ∧ .object outer ∈ movie.elementsOf outer ∧
    .object inner ∈ movie.elementsOf outer ∧ .object outer ∈ movie.elementsOf inner ∧
    ((Host.bare Unit).machine 0).toText (.object outer) ⟨movie, ()⟩ =
      (.ok ",x,,null,x,", ⟨movie, ()⟩) := by
  have hpatient : ((Host.bare Unit).machine 0).Patient movie :=
    patient_of_no_executor _ (by decide +kernel)
  obtain ⟨_, htext⟩ := ((Host.bare Unit).machine 0).toText_of_arrays hpatient
    (fun _ => plain_of_within) ()
  have hrendering : movie.rendering [] (.object outer) = ",x,,null,x," := by
    decide +kernel
  rw [hrendering] at htext
  refine ⟨plain_outer.1.isArray, ?_, ?_, ?_, htext⟩
  · simp [plain_outer.2]
  · simp [plain_outer.2]
  · simp [plain_inner.2]

end Machine

end ActionScript
