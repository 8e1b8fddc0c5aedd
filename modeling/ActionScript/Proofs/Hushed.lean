import ActionScript.Proofs.Broadcast
import ActionScript.Proofs.Nearest
import ActionScript.Proofs.Write

/-! # Observers that change nothing

A write that neither a watcher nor a setter takes part in has one outcome also where observers are
told of it, if they leave the movie as it is (`Machine.writeKey_leads`). The same holds of a
deletion (`Machine.deleteKey_leads`). -/

namespace ActionScript

namespace Machine

variable {σ : Type} [Journal σ] (machine : Machine σ) {m : Movie} {o : ObjectId} {key : String}
  {v : Value}

/-! ## Observers that change nothing -/

/-- The observers of a key leave every movie as it is when they are told of the key. -/
def Hushed (m : Movie) (key : String) : Prop :=
  ∀ observer ∈ m.observers.of key, ∀ s,
    (machine.services.notify observer key s).2.movie = s.movie

omit [Journal σ] in
theorem movie_told {observers : List Observer} (s : State σ) (h : ∀ observer ∈ observers, ∀ s,
      (machine.services.notify observer key s).2.movie = s.movie) :
    (machine.told key s observers).movie = s.movie := by
  induction observers generalizing s with
  | nil => rfl
  | cons observer observers ih =>
    obtain ⟨hobserver, hobservers⟩ := List.forall_mem_cons.mp h
    exact (ih _ hobservers).trans (hobserver s)

theorem announce_leads (hkey : m.normalize key = key) (hhushed : machine.Hushed m key) :
    (machine.announce key).Leads m () m := by
  intro e
  have hmovie := machine.movie_told (beforeTelling key ⟨m, e⟩) hhushed
  rw [beforeTelling_movie] at hmovie
  refine ⟨(machine.told key (beforeTelling key ⟨m, e⟩) (m.observers.of key)).embedder, ?_⟩
  rw [machine.announce_apply hkey]
  exact congrArg (fun m' => (Except.ok (), State.mk m' _)) hmovie

/-! ## Writes -/

/-- What lands in a slot without a watcher. -/
theorem land_yields (name : String)
    (hfound : ∀ {p}, (m.heap.find? o key).map Prod.snd = some p → p.isData ∧ p.watcher = none)
    (hlength : (m.written o key name v).heap.isArray o →
      ((m.written o key name v).lengthValue o).isObject = false) :
    (machine.land m o key name v).Yields m () ((m.written o key name v).settled o key) := by
  have hsettle := machine.settle_yields key hlength
  rw [land]
  cases hslot : m.heap.slot? o key with
  | some p =>
    obtain ⟨hdata, hwatcher⟩ := hfound (by rw [Heap.find?_of_slot? hslot]; rfl)
    have hsome : (m.heap.slot? o key).isSome := by rw [hslot]; rfl
    rw [Option.filter_some, if_pos hdata]
    rw [Movie.written_of_some hsome] at hsettle ⊢
    dsimp only
    rw [landOwn, hwatcher]
    refine .bind .pure (.movie ?_)
    dsimp only
    rw [if_pos hsome]
    exact .bind (.edit (Movie.modifyHeap _)) hsettle
  | none =>
    rw [Option.filter_none]
    cases hfind : (m.heap.find? o key).map Prod.snd with
    | none =>
      rw [Movie.written_of_none hslot hfind] at hsettle ⊢
      exact .bind .pure (.bind (.edit (Movie.storeAs o key name _)) hsettle)
    | some p =>
      rw [Movie.written_of_none hslot hfind] at hsettle ⊢
      have hpure : machine.watched o p.watcher p.value v = pure v := by
        rw [(hfound hfind).2]
        rfl
      dsimp only
      rw [landNew, hpure]
      exact .bind .pure (.bind (.edit (Movie.storeAs o key name _)) hsettle)

/-- A write that is accepted and not ignored, where neither a watcher nor a setter takes part and
observers change nothing. -/
theorem writeKey_leads (name : String) (hproto : key ≠ Heap.protoKey)
    (hput : m.heap.canPut o key) (hkept : ignores m o key v = false)
    (hfound : ∀ {p}, (m.heap.find? o key).map Prod.snd = some p → p.isData ∧ p.watcher = none)
    (hlength : (m.written o key name v).heap.isArray o →
      ((m.written o key name v).lengthValue o).isObject = false)
    (hkey : m.normalize key = key) (hhushed : machine.Hushed m key) :
    (machine.writeKey o key name v).Leads m ()
      ((m.written o key name v).settled o key) := by
  intro e
  have hfilter : ((m.heap.find? o key).map Prod.snd).filter Property.isAccessor = none := by
    refine Option.filter_eq_none_iff.mpr fun p hp => ?_
    rw [Property.isAccessor, (hfound hp).1]
    decide
  have hland := Run.Leads.of_yields (machine.land_yields name hfound hlength)
  have hsettledKey : ((m.written o key name v).settled o key).normalize key = key := by
    rw [Movie.normalize, Movie.settings_settled]
    exact hkey
  have hstill : machine.Hushed ((m.written o key name v).settled o key) key := by
    rw [Hushed, Movie.observers_settled]
    exact hhushed
  have hannounce := machine.announce_leads hsettledKey hstill
  have hboth : Run.Leads (do
      machine.land m o key name v
      machine.announce key : Run σ Unit) m () ((m.written o key name v).settled o key) :=
    .bind hland hannounce
  have haccepted := machine.writeKey_accepted (s := ⟨m, e⟩) name hproto hput hkept
  dsimp only at haccepted
  rw [hfilter] at haccepted
  obtain ⟨e', hwrite⟩ := hboth (State.after ⟨m, e⟩ m).embedder
  exact ⟨e', haccepted.trans hwrite⟩

theorem deleteKey_leads {p : Property} (hown : m.heap.own? o key = some p) (hp : p.isDeletable)
    (hkey : m.normalize key = key) (hhushed : machine.Hushed m key) :
    (discard (machine.deleteKey o key) : Run σ Unit).Leads m () (m.reslot o (·.erase key)) := by
  intro e
  have htell : ∀ t : State σ, ((do
      if (← getMovie).observers.contains key then machine.broadcast key
      return true : Update σ Bool) t).2 = (machine.announce key t).2 := by
    intro t
    rw [Update.look_apply, announce, Run.look_apply]
    split <;> rfl
  have hdelete : (machine.deleteKey o key ⟨m, e⟩).2 =
      (machine.announce key
        (State.after (State.looked ⟨m, e⟩ 1) (m.reslot o (·.erase key)))).2 := by
    rw [deleteKey, Update.look_apply, hown]
    dsimp only
    rw [if_pos hp]
    exact htell (State.after (State.looked ⟨m, e⟩ 1) (m.reslot o (·.erase key)))
  obtain ⟨e', hannounce⟩ := machine.announce_leads (m := m.reslot o (·.erase key)) hkey hhushed
    (State.after (State.looked ⟨m, e⟩ 1) (m.reslot o (·.erase key))).embedder
  refine ⟨e', ?_⟩
  show (Except.ok (), (machine.deleteKey o key ⟨m, e⟩).2) = _
  rw [hdelete]
  exact congrArg (fun r => (Except.ok (), r.2)) hannounce

end Machine

end ActionScript
