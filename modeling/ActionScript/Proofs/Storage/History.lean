import ActionScript.Proofs.Storage.Record

/-! # Histories of records

Records are created, changed by single operations and freed. However that goes on, the record of
every object stays coherent (`Storage.IsHistory.coherent`), and its list gives its keys in the order
in which each of them last became present in its map (`Storage.IsHistory.byAge`). -/

namespace ActionScript

/-- The records of the live objects by their handles. -/
def Storage := ObjectId → Option Record

namespace Storage

def empty : Storage := fun _ => none

def put (S : Storage) (o : ObjectId) (x : Record) : Storage :=
  fun p => if p = o then some x else S p

/-- Frees records. -/
def release (S : Storage) (doomed : ObjectId → Bool) : Storage :=
  fun o => if doomed o then none else S o

/-- The map of an object has the key. -/
def has (S : Storage) (o : ObjectId) (key : String) : Bool :=
  (S o).any (·.properties.contains key)

/-- What happens to the records at a time. -/
inductive Step (S : Storage) : Storage → Prop
  /-- The movie changes in something else. -/
  | stay : Step S S
  | create {o : ObjectId} (hfree : S o = none) (prototype : Option ObjectId) (kind : Kind) :
    Step S (S.put o (.new prototype kind))
  | change {o : ObjectId} {x y : Record} (hx : S o = some x) (hstep : x.Step y) : Step S (S.put o y)
  | free (doomed : ObjectId → Bool) : Step S (S.release doomed)

/-- What happens to the records one time after the other. -/
def Steps : Storage → Storage → Prop := Relation.ReflTransGen Step

/-- All records up to now, the latest first. -/
inductive IsHistory : List Storage → Prop
  | start : IsHistory [empty]
  | step {S S' : Storage} {older : List Storage} (h : IsHistory (S :: older)) (hstep : S.Step S') :
    IsHistory (S' :: S :: older)

/-- For how many steps in a row, up to now, the map of an object has had a key. -/
def age (past : List Storage) (o : ObjectId) (key : String) : Nat :=
  (past.takeWhile fun S => S.has o key).length

variable {S S' : Storage} {older past : List Storage} {o : ObjectId} {key : String} {x y : Record}

theorem has_eq (hx : S o = some x) : S.has o key = x.properties.contains key := by
  rw [has, hx, Option.any_some]

theorem age_cons (h : S.has o key) : age (S :: past) o key = age past o key + 1 := by
  rw [age, List.takeWhile_cons_of_pos (by exact h), List.length_cons, age]

theorem age_of_not_has (h : S.has o key = false) : age (S :: past) o key = 0 := by
  rw [age, List.takeWhile_cons_of_neg (by rw [h]; exact Bool.false_ne_true), List.length_nil]

/-! ## What a step preserves -/

/-- All records are coherent. -/
def Coherent (S : Storage) : Prop := ∀ o x, S o = some x → x.Coherent

theorem coherent_put (hS : S.Coherent) (hy : y.Coherent) (o : ObjectId) : (S.put o y).Coherent := by
  intro p x hx
  rw [put] at hx
  split at hx
  · cases hx
    exact hy
  · exact hS p x hx

theorem Coherent.step (hS : S.Coherent) (h : S.Step S') : S'.Coherent := by
  cases h with
  | stay => exact hS
  | create _ prototype kind => exact coherent_put hS (Record.coherent_new prototype kind) _
  | change hx hstep => exact coherent_put hS ((hS _ _ hx).step hstep) _
  | free doomed =>
    intro o x hx
    rw [release] at hx
    split at hx
    · cases hx
    · exact hS o x hx

theorem Coherent.steps (hS : S.Coherent) (h : S.Steps S') : S'.Coherent := by
  induction h with
  | refl => exact hS
  | tail _ hstep ih => exact ih.step hstep

/-- The list of an object gives its keys by their age. -/
def ByAge (past : List Storage) (o : ObjectId) (x : Record) : Prop :=
  x.order.Pairwise fun key key' => age past o key' < age past o key

/-- A key in the list of a coherent record is a step older than it was. -/
theorem age_succ (hy : S' o = some y) (hcoherent : y.Coherent) (hkey : key ∈ y.order) :
    age (S' :: past) o key = age past o key + 1 := by
  refine age_cons ?_
  rw [has_eq hy]
  exact Std.HashMap.mem_iff_contains.mp (hcoherent.mem_order.mp hkey)

/-- A key that is not in the list of a coherent record has no age. -/
theorem age_eq_zero (hx : S o = some x) (hcoherent : x.Coherent) (hkey : key ∉ x.order) :
    age (S :: past) o key = 0 := by
  refine age_of_not_has ?_
  rw [has_eq hx, ← Bool.not_eq_true, ← Std.HashMap.mem_iff_contains]
  exact fun hmem => hkey (hcoherent.mem_order.mpr hmem)

/-- Keys that are still there have grown older together. -/
theorem byAge_kept {keys : List String}
    (h : keys.Pairwise fun key key' => age past o key' < age past o key) (hy : S' o = some y)
    (hcoherent : y.Coherent) (hkeys : ∀ key ∈ keys, key ∈ y.order) :
    keys.Pairwise fun key key' => age (S' :: past) o key' < age (S' :: past) o key := by
  refine h.imp_of_mem fun hkey hkey' hlt => ?_
  rw [age_succ hy hcoherent (hkeys _ hkey), age_succ hy hcoherent (hkeys _ hkey')]
  exact Nat.succ_lt_succ hlt

/-- The keys that stay grow older, and one that is new is the youngest. -/
theorem ByAge.change (h : ByAge (S :: older) o x) (hx : S o = some x) (hcoherent : x.Coherent)
    (hy : S' o = some y) (hcoherent' : y.Coherent)
    (horder : (∃ p : String → Bool, y.order = x.order.filter p) ∨
      ∃ key, key ∉ x.order ∧ y.order = x.order ++ [key]) :
    ByAge (S' :: S :: older) o y := by
  rcases horder with ⟨p, horder⟩ | ⟨key, hnew, horder⟩
  · have hkept := h.filter p
    rw [← horder] at hkept
    exact byAge_kept hkept hy hcoherent' fun _ => id
  · have hstays : ∀ k ∈ x.order, k ∈ y.order := by
      intro k hk
      rw [horder]
      exact List.mem_append_left _ hk
    have hyoungest : age (S' :: S :: older) o key = 1 := by
      rw [age_succ hy hcoherent' (by rw [horder]; simp), age_eq_zero hx hcoherent hnew]
    rw [ByAge, horder, List.pairwise_append]
    refine ⟨byAge_kept h hy hcoherent' hstays, List.pairwise_singleton _ _, ?_⟩
    intro k hk k' hk'
    rw [List.mem_singleton.mp hk', hyoungest, age_succ hy hcoherent' (hstays k hk),
      age_succ hx hcoherent hk]
    exact Nat.succ_lt_succ (Nat.succ_pos _)

/-! ## What a history preserves -/

namespace IsHistory

theorem coherent (h : IsHistory (S :: older)) : S.Coherent := by
  generalize hpast : S :: older = past at h
  induction h generalizing S older with
  | start =>
    cases hpast
    rintro o x ⟨⟩
  | step _ hstep ih =>
    cases hpast
    exact (ih rfl).step hstep

theorem byAge (h : IsHistory (S :: older)) (hx : S o = some x) : ByAge (S :: older) o x := by
  generalize hpast : S :: older = past at h
  induction h generalizing S older o x with
  | start =>
    cases hpast
    cases hx
  | @step S₀ S' older hbefore hstep ih =>
    cases hpast
    have hcoherent := hbefore.coherent
    have hsame : ∀ {y}, S₀ o = some y → y.order = x.order → S' o = some x →
        ByAge (S' :: S₀ :: older) o x := fun hy horder hx =>
      (ih hy rfl).change hy (hcoherent _ _ hy) hx (hcoherent.step hstep _ _ hx)
        (.inl ⟨fun _ => true, by simp [horder]⟩)
    cases hstep with
    | stay => exact hsame hx rfl hx
    | @create o' hfree prototype kind =>
      by_cases ho : o = o'
      · subst ho
        have hnew : Record.new prototype kind = x := by simpa [put] using hx
        rw [ByAge, ← hnew]
        exact .nil
      · exact hsame (by simpa [put, ho] using hx) rfl hx
    | @change o' x₀ y₀ hx₀ hstep₀ =>
      by_cases ho : o = o'
      · subst ho
        have hnew : y₀ = x := by simpa [put] using hx
        subst hnew
        have hx₀' := hcoherent _ _ hx₀
        exact (ih hx₀ rfl).change hx₀ hx₀' hx (hx₀'.step hstep₀) (hstep₀.order hx₀')
      · exact hsame (by simpa [put, ho] using hx) rfl hx
    | free doomed =>
      by_cases ho : doomed o
      · simp [release, ho] at hx
      · exact hsame (by simpa [release, ho] using hx) rfl hx

/-- What came before is a history. -/
theorem suffix (h : IsHistory past) (hsuffix : S :: older <:+ past) : IsHistory (S :: older) := by
  induction h with
  | start =>
    rcases List.suffix_cons_iff.mp hsuffix with heq | hnil
    · rw [heq]
      exact .start
    · cases List.suffix_nil.mp hnil
  | step hbefore hstep ih =>
    rcases List.suffix_cons_iff.mp hsuffix with heq | hsuffix
    · rw [heq]
      exact .step hbefore hstep
    · exact ih hsuffix

/-- A history goes on by steps. -/
theorem extend (h : IsHistory (S :: older)) (hsteps : S.Steps S') :
    ∃ later, IsHistory (S' :: later) ∧ S :: older <:+ later := by
  induction hsteps with
  | refl => exact ⟨S :: older, .step h .stay, List.suffix_refl _⟩
  | tail _ hstep ih =>
    obtain ⟨later, hlater, hsuffix⟩ := ih
    exact ⟨_, .step hlater hstep, hsuffix.trans (List.suffix_cons _ _)⟩

end IsHistory

end Storage

end ActionScript
