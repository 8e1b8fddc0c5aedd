import ActionScript.Command.Literal
import ActionScript.Proofs.Numeral

/-! # Literals as they are written

A literal can be written in many ways, which differ in the blanks between its tokens
(`Literal.Written`). Reading a written literal gives it back, whatever follows it up to the next
comma or bracket (`Literal.Written.read_append`), so a whole text has one reading
(`Literal.Written.parse_eq`). -/

namespace ActionScript

/-! ## Written literals -/

namespace Literal

/-- The words that stand for a value other than a text. -/
inductive Word : Value → String → Prop
  | undefined : Word .undefined "undefined"
  | null : Word .null "null"
  | isTrue : Word (.bool true) "true"
  | isFalse : Word (.bool false) "false"
  | integer {n : Int} (hn : n.natAbs < 10 ^ 15) : Word (.number (.ofInt n)) (toString n)

mutual

/-- The text `cs` writes a literal: a word, a text in quotes or elements in brackets, with blanks
around it. -/
inductive Written : Literal → List Char → Prop
  | word {v : Value} {w : String} : Word v w → Written (.primitive v) w.toList
  | quoted {t : List Char} : '"' ∉ t →
    Written (.primitive (.string (String.ofList t))) ('"' :: t ++ ['"'])
  | empty {b : List Char} : (∀ c ∈ b, Text.isBlank c) → Written (.array []) ('[' :: b ++ [']'])
  | array {elements : List Literal} {cs : List Char} : Listed elements cs →
    Written (.array elements) ('[' :: cs ++ [']'])
  | blankBefore {l : Literal} {b : Char} {cs : List Char} : Text.isBlank b → Written l cs →
    Written l (b :: cs)
  | blankAfter {l : Literal} {b : Char} {cs : List Char} : Text.isBlank b → Written l cs →
    Written l (cs ++ [b])

/-- The text writes the elements of an array with commas between them. -/
inductive Listed : List Literal → List Char → Prop
  | one {l : Literal} {cs : List Char} : Written l cs → Listed [l] cs
  | more {l : Literal} {elements : List Literal} {cs ds : List Char} : Written l cs →
    Listed elements ds → Listed (l :: elements) (cs ++ ',' :: ds)

end

/-- The characters of a word neither end it nor start another kind of literal. -/
structure Plain (c : Char) : Prop where
  notBlank : Text.isBlank c = false
  notEnd : endsWord c = false
  notBracket : c ≠ '['
  notQuote : c ≠ '"'

theorem plain_of_isDigit {c : Char} (h : Number.isDigit c) : Plain c := by
  have hne (d : Char) (hd : ¬ Number.isDigit d) : c ≠ d := by
    rintro rfl
    exact hd h
  exact ⟨Number.not_isBlank_of_isDigit h,
    by simp [endsWord, hne ',' (by decide), hne ']' (by decide)], hne '[' (by decide),
    hne '"' (by decide)⟩

instance (c : Char) : Decidable (Plain c) :=
  decidable_of_iff (Text.isBlank c = false ∧ endsWord c = false ∧ c ≠ '[' ∧ c ≠ '"')
    ⟨fun ⟨h₁, h₂, h₃, h₄⟩ => ⟨h₁, h₂, h₃, h₄⟩, fun ⟨h₁, h₂, h₃, h₄⟩ => ⟨h₁, h₂, h₃, h₄⟩⟩

variable {v : Value} {w : String} {l : Literal} {elements : List Literal} {cs : List Char}
  {s : Settings}

theorem plain_of_all (h : cs.all fun c => decide (Plain c)) : ∀ c ∈ cs, Plain c := by
  simpa using h

theorem Word.plain (h : Word v w) : ∀ c ∈ w.toList, Plain c := by
  cases h with
  | undefined | null | isTrue | isFalse => exact plain_of_all (by decide)
  | integer hn =>
    intro c hc
    rcases Number.of_mem_toString hc with rfl | hc
    · decide
    · exact plain_of_isDigit hc

theorem Word.ne_nil (h : Word v w) : w.toList ≠ [] := by
  cases h with
  | undefined | null | isTrue | isFalse => decide
  | @integer n _ =>
    cases n with
    | ofNat n =>
      rw [Number.toList_toString_ofNat]
      exact Nat.toDigits_ne_nil
    | negSucc n =>
      rw [Number.toList_toString_negSucc]
      exact List.cons_ne_nil _ _

theorem Word.ofWord_eq (h : Word v w) : ofWord s w = v := by
  cases h with
  | undefined | null | isTrue | isFalse => rfl
  | @integer n hn =>
    have hne (t : String) (c : Char) (hc : c ∈ t.toList) (hc' : ¬ (c = '-' ∨ Number.isDigit c)) :
        toString n ≠ t := by
      rintro rfl
      exact hc' (Number.of_mem_toString hc)
    have hempty : (toString n).isEmpty = false := String.isEmpty_eq_false_iff.mpr fun h =>
      (Word.integer hn).ne_nil (String.toList_eq_nil_iff.mpr h)
    rw [ofWord, if_neg (hne _ 'u' (by decide) (by decide)),
      if_neg (hne _ 'n' (by decide) (by decide)), if_neg (hne _ 't' (by decide) (by decide)),
      if_neg (hne _ 'f' (by decide) (by decide)), if_neg (hne _ 'N' (by decide) (by decide))]
    rw [Settings.numberOf, hempty, if_neg Bool.false_ne_true, Number.ofText_toString hn]
    dsimp only
    rw [Number.isNaN_ofInt, if_neg Bool.false_ne_true]

/-! ## Reading -/

/-- What may follow a literal: blanks, and then the end of the text, a comma or a bracket. -/
def Closes (rest : List Char) : Prop := ∀ c ∈ (Text.trimStart rest).head?, endsWord c

theorem not_endsWord_of_isBlank {c : Char} (hc : Text.isBlank c) : endsWord c = false := by
  have hne (d : Char) (hd : ¬ Text.isBlank d) : c ≠ d := by
    rintro rfl
    exact hd hc
  simp [endsWord, hne ',' (by decide), hne ']' (by decide)]

theorem Closes.cons_of_isBlank {b : Char} {rest : List Char} (hb : Text.isBlank b)
    (h : Closes rest) : Closes (b :: rest) := by
  rwa [Closes, Text.trimStart_cons_of_isBlank hb]

theorem closes_cons {c : Char} (hc : endsWord c) (rest : List Char) : Closes (c :: rest) := by
  have hblank : Text.isBlank c = false :=
    Bool.eq_false_iff.mpr fun h => by rw [not_endsWord_of_isBlank h] at hc; cases hc
  rw [Closes, Text.trimStart_cons_of_not_isBlank hblank]
  intro d hd
  cases hd
  exact hc

/-- Only blanks stand between a word and what ends it. -/
theorem Closes.takeWhile_eq {rest : List Char} (h : Closes rest) :
    rest.takeWhile (fun c => !endsWord c) = rest.takeWhile Text.isBlank ∧
      rest.dropWhile (fun c => !endsWord c) = Text.trimStart rest := by
  have hblank : ∀ c ∈ rest.takeWhile Text.isBlank, (!endsWord c) = true := fun c hc => by
    rw [not_endsWord_of_isBlank (List.mem_takeWhile_imp hc)]
    rfl
  have htail : ∀ c ∈ (Text.trimStart rest).head?, (!endsWord c) = false := fun c hc => by
    rw [h c hc]
    rfl
  have hspan := span_append hblank htail
  rwa [Text.takeWhile_append_trimStart] at hspan

theorem read_trimStart (s : Settings) (n : Nat) (cs : List Char) :
    read s n (Text.trimStart cs) = read s n cs := by
  cases n with
  | zero => rw [read, read]
  | succ n => rw [read, read, Text.trimStart_trimStart]

theorem readElements_trimStart (s : Settings) (n : Nat) (cs : List Char) :
    readElements s n (Text.trimStart cs) = readElements s n cs := by
  cases n with
  | zero => rw [readElements, readElements]
  | succ n => rw [readElements, readElements, read_trimStart]

theorem read_word {cs rest : List Char} (hne : cs ≠ []) (hplain : ∀ c ∈ cs, Plain c)
    (hrest : Closes rest) (n : Nat) : read s (n + 1) (cs ++ rest) =
      .ok (.primitive (ofWord s (String.ofList cs)), Text.trimStart rest) := by
  obtain ⟨c, tail, rfl⟩ := List.exists_cons_of_ne_nil hne
  have hc := hplain c List.mem_cons_self
  have htrim : Text.trimStart (c :: tail ++ rest) = c :: tail ++ rest :=
    Text.trimStart_cons_of_not_isBlank hc.notBlank _
  have hend : ∀ d ∈ c :: tail, (!endsWord d) = true := fun d hd => by
    rw [(hplain d hd).notEnd]
    rfl
  have hword : Text.trimEnd (c :: tail ++ rest.takeWhile Text.isBlank) = c :: tail := by
    rw [Text.trimEnd_append_of_isBlank _ fun _ => List.mem_takeWhile_imp,
      Text.trimEnd_of_not_isBlank fun d hd => (hplain d hd).notBlank]
  rw [read, htrim]
  split
  · rename_i h
    cases h
  · rename_i h
    exact absurd (List.cons.inj h).1 hc.notBracket
  · rename_i h
    exact absurd (List.cons.inj h).1 hc.notQuote
  · rw [List.takeWhile_append_of_pos hend, List.dropWhile_append_of_pos hend,
      hrest.takeWhile_eq.1, hrest.takeWhile_eq.2]
    dsimp only
    rw [hword]
    rfl

theorem read_quoted {t : List Char} (ht : '"' ∉ t) (rest : List Char) (n : Nat) :
    read s (n + 1) ('"' :: t ++ ['"'] ++ rest) =
      .ok (.primitive (.string (String.ofList t)), rest) := by
  have hquote : ∀ c ∈ t, decide (c ≠ '"') = true := fun c hc =>
    decide_eq_true (ne_of_mem_of_not_mem hc ht)
  have htrim : Text.trimStart ('"' :: t ++ ['"'] ++ rest) = '"' :: (t ++ '"' :: rest) := by
    simp [Text.trimStart_cons_of_not_isBlank (c := '"') (by decide)]
  have hend : ∀ c ∈ ('"' :: rest).head?, decide (c ≠ '"') = false := by
    rintro c ⟨rfl⟩
    rfl
  obtain ⟨htake, hdrop⟩ := span_append hquote hend
  simp only [read, htrim, hdrop, htake]
  rfl

theorem read_empty {b : List Char} (hb : ∀ c ∈ b, Text.isBlank c) (rest : List Char) (n : Nat) :
    read s (n + 1) ('[' :: b ++ [']'] ++ rest) = .ok (.array [], rest) := by
  have htrim : Text.trimStart ('[' :: b ++ [']'] ++ rest) = '[' :: (b ++ ']' :: rest) := by
    simp [Text.trimStart_cons_of_not_isBlank (c := '[') (by decide)]
  have hinner : Text.trimStart (b ++ ']' :: rest) = ']' :: rest := by
    rw [Text.trimStart_append_of_isBlank hb, Text.trimStart_cons_of_not_isBlank (by decide)]
  simp only [read, htrim, hinner]
  rfl

theorem exists_cons_of_mark {c : Char} (hblank : Text.isBlank c = false)
    (hend : endsWord c = false) (cs : List Char) :
    ∃ d tail, Text.trimStart (c :: cs) = d :: tail ∧ endsWord d = false :=
  ⟨c, cs, Text.trimStart_cons_of_not_isBlank hblank cs, hend⟩

/-- A written literal starts with none of the marks that end one. -/
theorem Written.exists_cons : ∀ {l : Literal} {cs : List Char}, Written l cs → ∀ rest,
    ∃ c tail, Text.trimStart (cs ++ rest) = c :: tail ∧ endsWord c = false
  | _, _, .word h, rest => by
    obtain ⟨c, tail, hcs⟩ := List.exists_cons_of_ne_nil h.ne_nil
    have hc : Plain c := h.plain c (hcs ▸ List.mem_cons_self)
    rw [hcs]
    exact exists_cons_of_mark hc.notBlank hc.notEnd _
  | _, _, .quoted _, _ => exists_cons_of_mark (by decide) (by decide) _
  | _, _, .empty _, _ => exists_cons_of_mark (by decide) (by decide) _
  | _, _, .array _, _ => exists_cons_of_mark (by decide) (by decide) _
  | _, _, .blankBefore hb h, rest => by
    rw [List.cons_append, Text.trimStart_cons_of_isBlank hb]
    exact exists_cons h rest
  | _, _, .blankAfter _ h, rest => by
    rw [List.append_assoc]
    exact exists_cons h _

theorem Written.length_pos {l : Literal} {cs : List Char} (h : Written l cs) : 0 < cs.length := by
  obtain ⟨c, tail, hcs, _⟩ := h.exists_cons []
  rw [List.append_nil] at hcs
  refine List.length_pos_iff.mpr ?_
  rintro rfl
  cases hcs

theorem Listed.exists_cons (h : Listed elements cs) (rest : List Char) :
    ∃ c tail, Text.trimStart (cs ++ rest) = c :: tail ∧ endsWord c = false := by
  cases h with
  | one h => exact h.exists_cons rest
  | more h _ =>
    rw [List.append_assoc]
    exact h.exists_cons _

/-- Brackets around elements. -/
theorem read_array {rest rest' : List Char} {n : Nat} (h : Listed elements cs)
    (hread : readElements s n (cs ++ ']' :: rest) = .ok (elements, rest')) :
    read s (n + 1) ('[' :: cs ++ [']'] ++ rest) = .ok (.array elements, rest') := by
  have htrim : Text.trimStart ('[' :: cs ++ [']'] ++ rest) = '[' :: (cs ++ ']' :: rest) := by
    simp [Text.trimStart_cons_of_not_isBlank (c := '[') (by decide)]
  obtain ⟨c, tail, hinner, hc⟩ := h.exists_cons (']' :: rest)
  rw [← readElements_trimStart, hinner] at hread
  simp only [read, htrim, hinner]
  split
  · rename_i hclose
    rw [(List.cons.inj hclose).1] at hc
    cases hc
  · rw [hread]
    rfl

mutual

/-- Reading a written literal gives it back and stops at what follows it, up to blanks. -/
theorem Written.read_append (s : Settings) {l : Literal} {cs : List Char} (h : Written l cs)
    {rest : List Char} (hrest : Closes rest) {n : Nat} (hn : 2 * cs.length ≤ n) :
    ∃ rest', read s n (cs ++ rest) = .ok (l, rest') ∧
      Text.trimStart rest' = Text.trimStart rest := by
  obtain ⟨n, rfl⟩ : ∃ k, n = k + 1 := ⟨n - 1, by have := h.length_pos; omega⟩
  cases h with
  | word h =>
    have hread := read_word (s := s) h.ne_nil h.plain hrest n
    rw [String.ofList_toList, h.ofWord_eq] at hread
    exact ⟨_, hread, Text.trimStart_trimStart rest⟩
  | quoted ht => exact ⟨rest, read_quoted ht rest n, rfl⟩
  | empty hb => exact ⟨rest, read_empty hb rest n, rfl⟩
  | array h =>
    rw [List.length_append, List.length_cons] at hn
    exact ⟨rest, read_array h (h.readElements_append s rest (by omega)), rfl⟩
  | blankBefore hb h =>
    obtain ⟨rest', hread, hrest'⟩ := h.read_append s hrest (n := n + 1)
      (by rw [List.length_cons] at hn; omega)
    rw [← read_trimStart] at hread
    rw [← read_trimStart, List.cons_append, Text.trimStart_cons_of_isBlank hb]
    exact ⟨rest', hread, hrest'⟩
  | blankAfter hb h =>
    obtain ⟨rest', hread, hrest'⟩ := h.read_append s (hrest.cons_of_isBlank hb) (n := n + 1)
      (by rw [List.length_append] at hn; omega)
    rw [Text.trimStart_cons_of_isBlank hb] at hrest'
    rw [List.append_assoc]
    exact ⟨rest', hread, hrest'⟩
termination_by 2 * cs.length

/-- Reading the written elements of an array consumes its closing bracket. -/
theorem Listed.readElements_append (s : Settings) {elements : List Literal} {cs : List Char}
    (h : Listed elements cs) (rest : List Char) {n : Nat} (hn : 2 * cs.length < n) :
    readElements s n (cs ++ ']' :: rest) = .ok (elements, rest) := by
  obtain ⟨n, rfl⟩ : ∃ k, n = k + 1 := ⟨n - 1, by omega⟩
  cases h with
  | one h =>
    obtain ⟨rest', hread, hrest'⟩ := h.read_append s (closes_cons (c := ']') (by decide) rest)
      (n := n) (by omega)
    rw [Text.trimStart_cons_of_not_isBlank (by decide)] at hrest'
    simp only [readElements, hread, bind, Except.bind, hrest']
    rfl
  | @more _ _ cs ds h hmore =>
    rw [List.length_append, List.length_cons] at hn
    obtain ⟨rest', hread, hrest'⟩ := h.read_append s
      (closes_cons (c := ',') (by decide) (ds ++ ']' :: rest)) (n := n) (by omega)
    have hmore := hmore.readElements_append s rest (n := n) (by omega)
    rw [Text.trimStart_cons_of_not_isBlank (by decide)] at hrest'
    simp only [List.append_assoc, List.cons_append, readElements, hread, bind, Except.bind, hrest',
      hmore]
    rfl
termination_by 2 * cs.length + 1

end

/-- A written literal is read as a whole. -/
theorem Written.parse_eq (h : Written l cs) (s : Settings) : parse s cs = .ok l := by
  have hclose : Closes [] := fun c hc => nomatch hc
  obtain ⟨rest', hread, hrest'⟩ := h.read_append s hclose
    (n := 2 * cs.length + 2) (by omega)
  rw [List.append_nil] at hread
  simp only [parse, hread, bind, Except.bind, hrest']
  rfl

end Literal

end ActionScript
