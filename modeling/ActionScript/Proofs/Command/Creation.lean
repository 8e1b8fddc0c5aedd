import ActionScript.Proofs.Command.Built

/-! # Literals as they are created

A command creates the arrays of a literal while it reads it. What comes of that is what reading the
whole literal first and building it then leads to; where the text has a mistake, the mistake is the
same, and the arrays that were closed before it stay (`Literal.leaves_create`). A written literal
has no mistake, and the value that is created from it gives it back (`Literal.parse_build_unfolds`).
-/

namespace ActionScript

theorem Movie.settings_createArray (vs : List Value) (m : Movie) :
    (createArray vs m).2.settings = m.settings := by
  rw [createArray_eq]
  show ((if _ then _ else _ : Edit Unit) _).2.settings = _
  split <;> rfl

namespace Literal

variable {α β : Type} {m : Movie}

/-! ## Building keeps the settings -/

mutual

theorem settings_build : ∀ (l : Literal) (m : Movie), (l.build m).2.settings = m.settings
  | .primitive _, _ => rfl
  | .array elements, m => (Movie.settings_createArray _ _).trans (settings_buildAll elements m)

theorem settings_buildAll : ∀ (elements : List Literal) (m : Movie),
    (buildAll elements m).2.settings = m.settings
  | [], _ => rfl
  | l :: rest, m => (settings_buildAll rest _).trans (settings_build l m)

end

/-! ## Creating and building -/

/-- What creating leads to where reading leads to the first: what would be built from it, or the
same mistake once some literals that stand before it are built. -/
inductive Leaves (m : Movie) (build : α → Edit β) :
    Except LiteralError α → Except LiteralError β × Movie → Prop
  | ok (a : α) : Leaves m build (.ok a) (.ok (build a m).1, (build a m).2)
  | error (e : LiteralError) (left : List Literal) (hleft : arePure left) :
    Leaves m build (.error e) (.error e, (buildAll left m).2)

/-- A mistake before which nothing was created. -/
theorem Leaves.throw {build : α → Edit β} (e : LiteralError) :
    Leaves m build (.error e) (.error e, m) :=
  .error e [] rfl

theorem run_bind (y : ExceptT LiteralError Edit α) (g : α → ExceptT LiteralError Edit β)
    (m : Movie) : (y >>= g).run m = (ExceptT.bindCont g (y.run m).1).run (y.run m).2 := rfl

/-- Goes on after something was created, or stops with its mistake. -/
theorem Leaves.bind {build : α → Edit β} {x : Except LiteralError α}
    {y : ExceptT LiteralError Edit β} (h : Leaves m build x (y.run m)) {γ δ : Type}
    {build' : γ → Edit δ} {f : α → Except LiteralError γ} {g : β → ExceptT LiteralError Edit δ}
    (hnext : ∀ {a}, x = .ok a → Leaves m build' (f a) ((g (build a m).1).run (build a m).2)) :
    Leaves m build' (x >>= f) ((y >>= g).run m) := by
  rw [run_bind]
  generalize y.run m = created at h
  cases h with
  | ok a => exact hnext rfl
  | error e left hleft => exact .error e left hleft

/-- Builds what was read and hands on what follows it. -/
def andRest (build : α → Edit β) (a : α × List Char) : Edit (β × List Char) := do
  let b ← build a.1
  return (b, a.2)

theorem andRest_apply (build : α → Edit β) (a : α × List Char) (m : Movie) :
    andRest build a m = (((build a.1 m).1, a.2), (build a.1 m).2) := rfl

/-- The elements after the first one are created in the movie that it left. -/
theorem Leaves.cons {l : Literal} (hl : l.isPure)
    {x : Except LiteralError (List Literal × List Char)}
    {y : ExceptT LiteralError Edit (List Value × List Char)}
    (h : Leaves (l.build m).2 (andRest buildAll) x (y.run (l.build m).2)) :
    Leaves m (andRest buildAll) (x >>= fun e => pure (l :: e.1, e.2))
      ((y >>= fun e => pure ((l.build m).1 :: e.1, e.2)).run (l.build m).2) := by
  rw [run_bind]
  generalize y.run (l.build m).2 = created at h
  cases h with
  | ok a => exact .ok (l :: a.1, a.2)
  | error e left hleft => exact .error e (l :: left) (by rw [arePure, hl, hleft]; rfl)

/-- Whether a literal or the elements of an array are created, reading them leads to the same. -/
theorem leaves_createPrefix (n : Nat) :
    (∀ cs m, Leaves m (andRest Literal.build) (read m.settings n cs) ((createPrefix n cs).run m)) ∧
      ∀ cs m, Leaves m (andRest buildAll) (readElements m.settings n cs)
        ((createElements n cs).run m) := by
  induction n with
  | zero => exact ⟨fun _ _ => .throw _, fun _ _ => .throw _⟩
  | succ n ih =>
    constructor
    · intro cs m
      rw [read, createPrefix]
      split
      · exact .throw _
      · split
        · exact .ok (Literal.array [], _)
        · exact (ih.2 _ m).bind fun _ => .ok (Literal.array _, _)
      · split
        · exact .ok (Literal.primitive _, _)
        · exact .throw _
      · exact .ok (Literal.primitive _, _)
    · intro cs m
      rw [readElements, createElements]
      refine (ih.1 cs m).bind fun {first} hread => ?_
      obtain ⟨l, rest⟩ := first
      have hl : l.isPure := (isPure_of_read m.settings n).1 hread
      rw [andRest_apply]
      dsimp only
      split
      · rename_i cs _
        have hrest := ih.2 cs (l.build m).2
        rw [settings_build] at hrest
        exact hrest.cons hl
      · exact .ok ([l], _)
      · exact .error _ [l] (by rw [arePure, hl]; rfl)

/-- Creating a text does to the movie what reading it and building what was read does. If the text
has a mistake, that is the answer, and literals that stand before it may have been built. -/
theorem leaves_create (cs : List Char) (m : Movie) :
    Leaves m Literal.build (parse m.settings cs) ((create cs).run m) := by
  rw [parse, create]
  refine ((leaves_createPrefix _).1 cs m).bind fun {first} hread => ?_
  obtain ⟨l, rest⟩ := first
  have hl : l.isPure := (isPure_of_read m.settings _).1 hread
  rw [andRest_apply]
  dsimp only
  split
  · exact .ok l
  · exact .error _ [l] (by rw [arePure, hl]; rfl)

/-- What is read is created as it would be built. -/
theorem create_of_parse {l : Literal} {cs : List Char} (h : parse m.settings cs = .ok l) :
    (create cs).run m = (.ok (l.build m).1, (l.build m).2) := by
  have hleaves := leaves_create cs m
  rw [h] at hleaves
  generalize (create cs).run m = created at hleaves
  cases hleaves with
  | ok l => rfl

/-! ## The round trip -/

/-- A written literal is read, the value that is created from its text is the one that is built from
it, and that value unfolds to it, in every movie without an interpreter that could stop the reading
of elements. A limit in the settings that is above `2 ^ 32 - 1` counts as `2 ^ 32 - 1`, the greatest
length of an array. -/
theorem parse_build_unfolds {σ : Type} [Journal σ] {l : Literal} {cs : List Char}
    (h : Written l cs) {m : Movie}
    (hm : Session.Reached m) (hexecutor : m.executor = none)
    (hl : l.widest ≤ min m.settings.maxElements 0xffffffff) (machine : Machine σ) :
    parse m.settings cs = .ok l ∧
      (create cs).run m = (.ok (l.build m).1, (l.build m).2) ∧
      Unfolds machine (l.build m).2 l (l.build m).1 := by
  have hparse := h.parse_eq m.settings
  obtain ⟨_, hgrows, hshown⟩ := built_build l (isPure_of_parse hparse) hm.arena
  refine ⟨hparse, create_of_parse hparse, hshown.unfolds machine ?_ ?_⟩
  · rw [hgrows.executor_eq, hexecutor]
  · rwa [hgrows.settings_eq]

/-- Settings in which the empty text counts as no number and case does not count. -/
def versionFive : Settings where
  version := 5

/-- A literal with an array in an array, and with a comma and a bracket in a text. -/
def nested : Literal :=
  .array [.primitive (.number (.ofInt (-7))),
    .array [.primitive (.string (String.ofList [',', ']'])), .array []], .primitive .undefined]

def nestedText : List Char := "[ -7,[\",]\" ,[ ]] ,undefined ]".toList

theorem written_nested : Written nested nestedText :=
  .array (.more (.blankBefore (b := ' ') (by decide) (.word (.integer (by decide))))
    (.more (.blankAfter (b := ' ') (by decide) (.array
      (.more (.blankAfter (b := ' ') (by decide) (.quoted (by decide)))
        (.one (.empty (List.forall_mem_singleton.mpr (by decide)))))))
      (.one (.blankAfter (b := ' ') (by decide) (.word .undefined)))))

theorem parse_build_unfolds_nested :
    Written nested nestedText ∧ Session.Reached (Movie.new versionFive) ∧
    (Movie.new versionFive).executor = none ∧
    nested.widest ≤ min (Movie.new versionFive).settings.maxElements 0xffffffff ∧
    parse (Movie.new versionFive).settings nestedText = .ok nested ∧
    (create nestedText).run (Movie.new versionFive) =
      (.ok (nested.build (Movie.new versionFive)).1, (nested.build (Movie.new versionFive)).2) ∧
    Unfolds ((Host.bare Unit).machine 1) (nested.build (Movie.new versionFive)).2 nested
      (nested.build (Movie.new versionFive)).1 := by
  have hreached := Session.reached_new versionFive
  have hexecutor : (Movie.new versionFive).executor = none := by decide +kernel
  have hwidest : nested.widest ≤ min (Movie.new versionFive).settings.maxElements 0xffffffff := by
    decide +kernel
  exact ⟨written_nested, hreached, hexecutor, hwidest,
    parse_build_unfolds written_nested hreached hexecutor hwidest _⟩

end Literal

end ActionScript
