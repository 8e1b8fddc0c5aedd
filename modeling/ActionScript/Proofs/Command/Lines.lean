import ActionScript.Proofs.Command.Creation
import ActionScript.Proofs.Command.Start

/-! # Command lines

The lines of a script share one movie, which only gains arrays from them (`Command.answer_eq`). The
answer to a line is therefore that of the line alone (`Command.reply`), and so is what a script
prints (`Command.runScript_eq_alone`). -/

namespace ActionScript

theorem Update.bind_eq {σ α β : Type} {x : Update σ α} {f : α → Update σ β} {s t : State σ} {a : α}
    (h : x.run s = (a, t)) : (x >>= f).run s = (f a).run t := by
  show (f (x.run s).1).run (x.run s).2 = _
  rw [h]

namespace Command

/-- The outcome of a command, from the settings and the line alone. -/
def outcome (s : Settings) (line : String) : Except CommandError String :=
  let cs := Text.trim line.toList
  let name := String.ofList (cs.takeWhile fun c => !Text.isBlank c)
  match Literal.parse s ((cs.dropWhile fun c => !Text.isBlank c).drop 1) with
  | .error error => .error (.badLiteral error)
  | .ok literal =>
    match Operation.ofName? name with
    | none => .error (.unknownOperation name)
    | some operation => .ok (literal.apply s operation)

/-- The answer to a line, from the settings and the line alone. -/
def reply (s : Settings) (line : String) : Output :=
  match outcome s line with
  | .ok text => .out (text ++ "\n")
  | .error error => .err ("Error: " ++ error.message ++ "\n")

theorem builtin_self (this : Value) (args : List Value) :
    machine.builtin (.object .self) this args = pure this := rfl

theorem convert_eq {m : Movie} (hm : m.Ordinary) {l : Literal} {v : Value}
    (h : Literal.Shown m.Created l v) (operation : Operation) :
    (convert machine v operation).run ⟨m, ()⟩ =
      (.ok (l.apply m.settings operation), ⟨m, ()⟩) := by
  obtain ⟨_, _, hconvert⟩ := h.convert_yields hm builtin_self operation ()
  exact hconvert

/-- A command answers from the settings and the line. It adds the arrays of its literal, or those
that stand before a mistake in it. -/
theorem run_eq {m : Movie} (hm : m.Ordinary) (line : String) :
    ∃ m', (run machine line).run ⟨m, ()⟩ = (outcome m.settings line, ⟨m', ()⟩) ∧
      m.GrowsTo m' ∧ m'.Ordinary := by
  rw [run, outcome]
  generalize Text.trim line.toList = cs
  generalize String.ofList (cs.takeWhile fun c => !Text.isBlank c) = name
  generalize (cs.dropWhile fun c => !Text.isBlank c).drop 1 = argument
  have hcreate := Literal.leaves_create argument m
  have hlift : (liftM (Literal.create argument).run : Update Unit _).run ⟨m, ()⟩ =
      (((Literal.create argument).run m).1, ⟨((Literal.create argument).run m).2, ()⟩) := rfl
  rw [Update.bind_eq hlift]
  generalize hparse : Literal.parse m.settings argument = parsed at hcreate
  generalize (Literal.create argument).run m = created at hcreate
  cases hcreate with
  | error error left hleft =>
    -- Arrays that were closed before the mistake stay in the movie.
    obtain ⟨harena, hgrows, -⟩ := Literal.built_buildAll left hleft hm.arena
    exact ⟨(Literal.buildAll left m).2, rfl, hgrows, hm.growsTo hgrows harena⟩
  | ok literal =>
    obtain ⟨harena, hgrows, hshown⟩ :=
      Literal.built_build literal (Literal.isPure_of_parse hparse) hm.arena
    have hm' := hm.growsTo hgrows harena
    refine ⟨(literal.build m).2, ?_, hgrows, hm'⟩
    cases Operation.ofName? name with
    | none => rfl
    | some operation =>
      have hconvert := convert_eq hm' hshown operation
      rw [hgrows.settings_eq] at hconvert
      exact Update.bind_eq (x := ExceptT.run _) hconvert

theorem answer_eq {m : Movie} (hm : m.Ordinary) (line : String) :
    ∃ m', (answer machine line).run ⟨m, ()⟩ = (reply m.settings line, ⟨m', ()⟩) ∧
      m.GrowsTo m' ∧ m'.Ordinary := by
  obtain ⟨m', hrun, hgrows, hm'⟩ := run_eq hm line
  refine ⟨m', ?_, hgrows, hm'⟩
  rw [answer, Update.bind_eq hrun, reply]
  cases outcome m.settings line <;> rfl

/-- The answers to lines that follow each other are those to each line. -/
theorem mapM_answer_eq {m : Movie} (hm : m.Ordinary) (lines : List String) :
    ((lines.mapM (answer machine)).run ⟨m, ()⟩).1 = lines.map (reply m.settings) := by
  induction lines generalizing m with
  | nil => rfl
  | cons line lines ih =>
    obtain ⟨m', hanswer, hgrows, hm'⟩ := answer_eq hm line
    have hrest := ih hm'
    rw [hgrows.settings_eq] at hrest
    rw [List.mapM_cons, Update.bind_eq hanswer, List.map_cons, ← hrest]
    rfl

/-- The answer to a line in a movie that nothing has run in. -/
def alone (s : Settings) (line : String) : Output := ((answer machine line).run (start s)).1

theorem alone_eq (s : Settings) (line : String) : alone s line = reply s line := by
  obtain ⟨m', hanswer, _⟩ := answer_eq (Movie.ordinary_new s) line
  rw [Movie.settings_new] at hanswer
  rw [alone, start, hanswer]

theorem isError_alone_iff (s : Settings) (line : String) :
    (alone s line).isError ↔ ∃ error, ((run machine line).run (start s)).1 = .error error := by
  obtain ⟨m', hrun, _⟩ := run_eq (Movie.ordinary_new s) line
  rw [Movie.settings_new] at hrun
  rw [alone_eq, start, hrun, reply]
  cases outcome s line with
  | ok text => simp [Output.isError]
  | error error => simp [Output.isError]

theorem forM_print_map {α : Type} (f : α → Output) (xs : List α) :
    (xs.map f).forM print = xs.forM fun x => print (f x) := by
  induction xs with
  | nil => rfl
  | cons x xs ih => exact congrArg (fun rest => print (f x) >>= fun _ => rest) ih

/-- The lines of a script do not depend on each other: a script answers its lines that are neither
blank nor comments in their order, each as it is answered in a new movie, and prints these answers;
its status is 1 if and only if one of these commands fails by itself. -/
theorem runScript_eq_alone (s : Settings) (lines : List String) :
    ((runLines machine lines).run (start s)).1 =
      (lines.filter fun line => !isIgnored line).map (alone s) ∧
    runScript s lines = (do
      (lines.filter fun line => !isIgnored line).forM fun line => print (alone s line)
      return status ((runLines machine lines).run (start s)).1) ∧
    (status ((runLines machine lines).run (start s)).1 = 1 ↔
      ∃ line ∈ lines, isIgnored line = false ∧
        ∃ error, ((run machine line).run (start s)).1 = .error error) := by
  have houtputs : ((runLines machine lines).run (start s)).1 =
      (lines.filter fun line => !isIgnored line).map (alone s) := by
    rw [runLines, start, mapM_answer_eq (Movie.ordinary_new s), Movie.settings_new]
    exact List.map_congr_left fun line _ => (alone_eq s line).symm
  refine ⟨houtputs, ?_, ?_⟩
  · rw [runScript, houtputs, forM_print_map]
  · have hany : (((lines.filter fun line => !isIgnored line).map (alone s)).any Output.isError) ↔
        ∃ line ∈ lines, isIgnored line = false ∧
          ∃ error, ((run machine line).run (start s)).1 = .error error := by
      simp only [List.any_map, List.any_eq_true, List.mem_filter, Bool.not_eq_true',
        Function.comp_apply, isError_alone_iff, and_assoc]
    rw [houtputs, ← hany, status]
    split
    · rename_i h
      exact iff_of_true rfl h
    · rename_i h
      exact iff_of_false (by decide) h

end Command

end ActionScript
