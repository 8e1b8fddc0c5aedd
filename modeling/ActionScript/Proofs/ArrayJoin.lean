import ActionScript.Proofs.ArrayText

/-! # Joined arrays

The methods `join` and `toString` write out an array by converting each of its elements, so that
every element begins a path of its own. Conversion keeps the array on the path of its elements. The
two differ only at elements that lead back to the array: there a method writes the array out once
more (`Machine.join_of_arrays`, `Machine.join_ring_ne`). -/

namespace ActionScript

/-! ## Renderings on different paths -/

namespace Movie

variable {m : Movie} {a b : ObjectId} {v : Value}

theorem Within.trans (hb : m.Within a (.object b)) (hv : m.Within b v) : m.Within a v := by
  induction hv with
  | root => exact hb
  | element _ hmem ih => exact .element ih hmem

/-- The value is an array, or holds one at some depth, that is the given one. -/
def LeadsTo (m : Movie) (v : Value) (a : ObjectId) : Prop :=
  ∃ b, v = .object b ∧ m.Within b (.object a)

/-- A path matters to a rendering only through the arrays that the value leads to. -/
theorem rendering_congr {p q : List ObjectId} (h : ∀ a, m.LeadsTo v a → (a ∈ p ↔ a ∈ q)) :
    m.rendering p v = m.rendering q v := by
  induction hn : (m.offPath p).card using Nat.strongRecOn generalizing p q v with
  | ind n ih =>
    cases v with
    | object b =>
      have hb := h b ⟨b, rfl, .root⟩
      by_cases hon : b ∈ p
      · rw [rendering_onPath hon, rendering_onPath (hb.mp hon)]
      · have hoff : b ∉ q := fun hq => hon (hb.mpr hq)
        by_cases harray : m.heap.isArray b
        · rw [rendering_array harray hon, rendering_array harray hoff]
          refine congrArg (String.intercalate ",") (List.map_congr_left fun e he => ?_)
          have hless := card_offPath_cons_lt harray hon
          refine ih _ (hn ▸ hless) (fun c hc => ?_) rfl
          obtain ⟨d, rfl, hd⟩ := hc
          have hc := h c ⟨b, rfl, (Within.element .root he).trans hd⟩
          rw [List.mem_cons, List.mem_cons, hc]
        · rw [rendering, rendering, dif_neg fun h => harray h.1, dif_neg fun h => harray h.1]
    | _ => rw [rendering_primitive rfl, rendering_primitive rfl]

/-- The texts of the elements of an array, each rendered on a path of its own. -/
def joined (m : Movie) (a : ObjectId) : String :=
  ",".intercalate ((m.elementsOf a).map (m.rendering []))

/-- On an element that does not lead back to the array, the array on the path makes no difference.
-/
theorem rendering_of_not_leadsTo (h : ¬ m.LeadsTo v a) : m.rendering [] v = m.rendering [a] v := by
  refine rendering_congr fun b hb => ?_
  rw [List.mem_singleton]
  exact ⟨(nomatch ·), fun heq => (h (heq ▸ hb)).elim⟩

theorem joined_eq_rendering (ha : m.heap.isArray a) (h : ∀ e ∈ m.elementsOf a, ¬ m.LeadsTo e a) :
    m.joined a = m.rendering [] (.object a) := by
  rw [rendering_array ha List.not_mem_nil, joined]
  exact congrArg (String.intercalate ",")
    (List.map_congr_left fun e he => rendering_of_not_leadsTo (h e he))

end Movie

/-! ## Methods and conversion -/

namespace Machine

variable {σ : Type} [Journal σ] (machine : Machine σ) {m : Movie} {a : ObjectId}

section Plain

variable (hpatient : machine.Patient m) (hplain : ∀ b, m.Within a (.object b) → m.PlainArray b)
include hpatient hplain

theorem toText_answers {v : Value} (hv : m.Within a v) :
    (machine.toText v).Answers m (m.rendering [] v) := by
  refine .movie ?_
  cases v with
  | object b =>
    exact machine.textWith_answers hpatient (fun c hc => hplain c (hv.trans hc)) List.nodup_nil
      (fun _ hc => nomatch hc) (by simp) .root
  | _ =>
    rw [Movie.rendering_primitive rfl]
    exact .movie .pure

theorem joinElements_answers :
    (Builtin.joinElements machine a ",").Answers m (.string (m.joined a)) := by
  have htexts := Run.Answers.mapM fun e he =>
    machine.toText_answers hpatient hplain (.element .root he)
  exact .bind (machine.elements_answers hpatient (hplain a .root)) (.bind htexts .pure)

theorem text_answers (args : List Value) :
    (Builtin.run machine (.array .text) (.object a) args).Answers m (.string (m.joined a)) :=
  .bind (.of_yields (machine.toObject_yields a)) (machine.joinElements_answers hpatient hplain)

/-- The separator is the comma by default. -/
theorem join_answers {args : List Value} (hargs : argument args 0 = .undefined) :
    (Builtin.run machine (.array .join) (.object a) args).Answers m (.string (m.joined a)) := by
  refine .bind (.of_yields (machine.toObject_yields a)) ?_
  rw [hargs]
  exact .bind .pure (machine.joinElements_answers hpatient hplain)

/-- Let what an array leads to through elements be primitive values and arrays of primitive length,
all of them read without a call, and let the interpreter, if any, not stop the computation. Then
both methods give the texts of the elements, each rendered on a path of its own, and conversion
gives them with the array on their paths. These are the same at every element that does not lead
back to the array, so the methods and conversion agree on every array that does not contain itself,
however its elements are shared and wherever else they lead. -/
theorem join_of_arrays (args : List Value) :
    (Builtin.run machine (.array .text) (.object a) args).Answers m (.string (m.joined a)) ∧
    (argument args 0 = .undefined →
      (Builtin.run machine (.array .join) (.object a) args).Answers m (.string (m.joined a))) ∧
    (machine.toText (.object a)).Answers m (m.rendering [] (.object a)) ∧
    m.rendering [] (.object a) = ",".intercalate ((m.elementsOf a).map (m.rendering [a])) ∧
    (∀ e ∈ m.elementsOf a, ¬ m.LeadsTo e a → m.rendering [] e = m.rendering [a] e) ∧
    ((∀ e ∈ m.elementsOf a, ¬ m.LeadsTo e a) → m.joined a = m.rendering [] (.object a)) := by
  have harray := (hplain a .root).isArray
  exact ⟨machine.text_answers hpatient hplain args, machine.join_answers hpatient hplain,
    machine.toText_answers hpatient hplain .root,
    Movie.rendering_array harray List.not_mem_nil, fun _ _ => Movie.rendering_of_not_leadsTo,
    Movie.joined_eq_rendering harray⟩

end Plain

namespace SharedArray

/-- Makes an array that contains another array twice. -/
def create : Edit (ObjectId × ObjectId) := do
  let inner ← Movie.createArray [.string "x", .undefined]
  let outer ← Movie.createArray [.object inner, .null, .object inner]
  return (inner, outer)

@[irreducible] def inner : ObjectId := (create (Movie.new {})).1.1

@[irreducible] def outer : ObjectId := (create (Movie.new {})).1.2

/-- A new movie with them. -/
@[irreducible] def movie : Movie := (create (Movie.new {})).2

theorem plain_outer : movie.PlainArray outer ∧
    movie.elementsOf outer = [.object inner, .null, .object inner] := by
  decide +kernel

theorem plain_inner : movie.PlainArray inner ∧
    movie.elementsOf inner = [.string "x", .undefined] := by
  decide +kernel

theorem eq_of_within {a b : ObjectId} (ha : a = outer ∨ a = inner)
    (hb : movie.Within a (.object b)) : b = a ∨ b = inner := by
  generalize hv : Value.object b = v at hb
  induction hb generalizing b with
  | root =>
    cases hv
    exact .inl rfl
  | @element c _ _ hmem ih =>
    subst hv
    have hc : c = outer ∨ c = inner := by
      rcases ih rfl with rfl | rfl
      · exact ha
      · exact .inr rfl
    rcases hc with rfl | rfl
    · rw [plain_outer.2] at hmem
      exact .inr (by simpa using hmem)
    · rw [plain_inner.2] at hmem
      simp at hmem

theorem plain_of_within {b : ObjectId} (hb : movie.Within outer (.object b)) :
    movie.PlainArray b := by
  rcases eq_of_within (.inl rfl) hb with rfl | rfl
  · exact plain_outer.1
  · exact plain_inner.1

theorem not_leadsTo {e : Value} (he : e ∈ movie.elementsOf outer) : ¬ movie.LeadsTo e outer := by
  rintro ⟨b, rfl, hb⟩
  have hinner : b = inner := by
    rw [plain_outer.2] at he
    simpa using he
  subst hinner
  have hne : outer ≠ inner := by
    intro heq
    have helements := plain_outer.2
    rw [heq, plain_inner.2] at helements
    simp at helements
  rcases eq_of_within (.inr rfl) hb with heq | heq <;> exact hne heq

end SharedArray

open SharedArray in
/-- The inner array is written out both times, by the method as by conversion. -/
theorem join_shared :
    .object inner ∈ movie.elementsOf outer ∧
    Builtin.run ((Host.bare Unit).machine 0) (.array .join) (.object outer) [.undefined]
      ⟨movie, ()⟩ = (.ok (.string "x,undefined,null,x,undefined"), ⟨movie, ()⟩) ∧
    ((Host.bare Unit).machine 0).toText (.object outer) ⟨movie, ()⟩ =
      (.ok "x,undefined,null,x,undefined", ⟨movie, ()⟩) := by
  have hpatient : ((Host.bare Unit).machine 0).Patient movie :=
    Machine.patient_of_no_executor _ (by decide +kernel)
  obtain ⟨-, hjoin, htext, -, -, hsame⟩ :=
    ((Host.bare Unit).machine 0).join_of_arrays hpatient (fun _ => plain_of_within) [.undefined]
  obtain ⟨_, hjoin⟩ := hjoin rfl ()
  obtain ⟨_, htext⟩ := htext ()
  have hrendering : movie.rendering [] (.object outer) = "x,undefined,null,x,undefined" := by
    decide +kernel
  rw [hsame fun _ => not_leadsTo, hrendering] at hjoin
  rw [hrendering] at htext
  exact ⟨by simp [plain_outer.2], hjoin, htext⟩

open ArrayRing in
/-- The methods write an array that contains itself out once more at every place where its elements
lead back to it. -/
theorem join_ring_ne :
    (∀ b, movie.Within outer (.object b) → movie.PlainArray b) ∧
    .object outer ∈ movie.elementsOf outer ∧
    ((Host.bare Unit).machine 0).toText (.object outer) ⟨movie, ()⟩ =
      (.ok ",x,,null,x,", ⟨movie, ()⟩) ∧
    Builtin.run ((Host.bare Unit).machine 0) (.array .text) (.object outer) [] ⟨movie, ()⟩ =
      (.ok (.string ",x,,null,x,,x,,,null,,null,x,,,null,"), ⟨movie, ()⟩) ∧
    Builtin.run ((Host.bare Unit).machine 0) (.array .join) (.object outer) [] ⟨movie, ()⟩ =
      (.ok (.string ",x,,null,x,,x,,,null,,null,x,,,null,"), ⟨movie, ()⟩) := by
  have hpatient : ((Host.bare Unit).machine 0).Patient movie :=
    Machine.patient_of_no_executor _ (by decide +kernel)
  have hplain : ∀ b, movie.Within outer (.object b) → movie.PlainArray b :=
    fun _ => plain_of_within
  obtain ⟨_, htext⟩ := Machine.toText_answers _ hpatient hplain .root ()
  obtain ⟨_, hmethod⟩ := Machine.text_answers _ hpatient hplain [] ()
  have hdefault : argument [] 0 = .undefined := rfl
  obtain ⟨_, hjoin⟩ := Machine.join_answers _ hpatient hplain hdefault ()
  have hrendering : movie.rendering [] (.object outer) = ",x,,null,x," := by
    decide +kernel
  have hjoined : movie.joined outer = ",x,,null,x,,x,,,null,,null,x,,,null," := by
    decide +kernel
  rw [hrendering] at htext
  rw [hjoined] at hmethod hjoin
  exact ⟨hplain, by simp [plain_outer.2], htext, hmethod, hjoin⟩

end Machine

end ActionScript
