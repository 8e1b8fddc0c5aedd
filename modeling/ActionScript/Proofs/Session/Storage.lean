import ActionScript.Proofs.Session.Course
import ActionScript.Proofs.Session.Past
import ActionScript.Proofs.Session.Reached
import ActionScript.Proofs.Storage.Edit

/-! # Records beside a session

Whatever a client does, with callbacks that make calls of their own, records go along with the
movies of its session: they are created, changed by single operations and freed, and in every movie
those that there are then are the records of its objects. So in every movie the list of an object
holds the keys of its map, each once, in the order in which each of them last became present, and
every descriptor is coherent (`Client.keys_by_age`). -/

namespace ActionScript.Session

variable {σ α : Type}

/-- A history of records goes along with movies each of which lasts in those after it. -/
theorem exists_storage {first : Movie} (hfirst : Heap.Edited {} first.heap) (newer : List Movie)
    (hinOrder : ∀ m ∈ newer ++ [first], m.InOrder)
    (hlasts : (newer ++ [first]).Pairwise fun n m => m.Lasts n) :
    ∃ S later shown, Storage.IsHistory (S :: later) ∧ shown.Sublist later ∧
      List.Forall₂ (fun S (m : Movie) => S.Shows m.heap) (S :: shown) (newer ++ [first]) := by
  induction newer with
  | nil =>
    obtain ⟨S, later, hpast, -, hS⟩ := Storage.shows_empty.extend .start .empty hfirst
    exact ⟨S, later, [], hpast, List.nil_sublist later, .cons hS .nil⟩
  | cons m newer ih =>
    rw [List.cons_append] at hinOrder hlasts ⊢
    obtain ⟨-, hinOrder⟩ := List.forall_mem_cons.mp hinOrder
    obtain ⟨hlast, hlasts⟩ := List.pairwise_cons.mp hlasts
    obtain ⟨S, later, shown, hpast, hshown, hmovies⟩ := ih hinOrder hlasts
    generalize newer ++ [first] = movies at *
    cases hmovies with
    | @cons _ p _ older hS hmovies =>
      have hedited := (hlast p List.mem_cons_self).edited
      obtain ⟨S', later', hpast', hsuffix, hS'⟩ :=
        hS.extend hpast (hinOrder p List.mem_cons_self).arena hedited
      exact ⟨S', later', S :: shown, hpast', (hshown.cons_cons S).trans hsuffix.sublist,
        .cons hS' (.cons hS hmovies)⟩

namespace Client

/-- The first of the movies of a session is the new one, and a history of records goes along from
there. -/
theorem exists_history (c : Client σ) (depth : Nat) (settings : Settings) (own : σ)
    (main : Program σ α) :
    ∃ stored shown, Storage.IsHistory stored ∧ shown.Sublist stored ∧
      List.Forall₂ (fun S (m : Movie) => S.Shows m.heap) shown
        (c.play depth settings own main).embedder.past := by
  have horderly := c.orderly_play depth settings own main
  obtain ⟨newer, hpast⟩ :
      [Movie.new settings] <:+ (c.play depth settings own main).embedder.past :=
    Program.run_since (c.respects_since depth) main false (List.suffix_refl _)
  have hinOrder := horderly.inOrder
  have hlasts := horderly.lasts
  rw [← hpast] at hinOrder hlasts ⊢
  obtain ⟨S, later, shown, hstored, hshown, hmovies⟩ :=
    exists_storage (Movie.passes_new settings).edited newer hinOrder hlasts
  exact ⟨S :: later, S :: shown, hstored, hshown.cons_cons S, hmovies⟩

/-- Records go along with the movies of a session, from its beginning on and one operation at a
time. In every history of records, whichever bits the operations are given, the list of an object
holds the keys of its map, each once, in the order in which each of them last became present; every
descriptor is marked either as data or as an accessor, an accessor is not marked read-only, and data
has neither getter nor setter. The keys of the objects in the movies stand in the order in which
each of them last became present as well. -/
theorem keys_by_age (c : Client σ) (depth : Nat) (settings : Settings) (own : σ)
    (main : Program σ α) :
    (∃ older, (c.play depth settings own main).embedder.past =
      (c.play depth settings own main).movie :: older) ∧
    (∃ stored shown, Storage.IsHistory stored ∧ shown.Sublist stored ∧
      List.Forall₂ (fun S (m : Movie) => S.Shows m.heap) shown
        (c.play depth settings own main).embedder.past) ∧
    (∀ {S older}, Storage.IsHistory (S :: older) → ∀ {o x}, S o = some x →
      x.order.Nodup ∧
      (∀ key, key ∈ x.order ↔ key ∈ x.properties) ∧
      (x.order.Pairwise fun key key' =>
        Storage.age (S :: older) o key' < Storage.age (S :: older) o key) ∧
      ∀ {key : String} {d : Descriptor}, x.properties[key]? = some d →
        d.isData = !d.isAccessor ∧
        (d.isAccessor = true → d.isReadOnly = false) ∧
        (d.isData = true → d.getter = none ∧ d.setter = none)) ∧
    ∀ {m older}, m :: older <:+ (c.play depth settings own main).embedder.past →
      ∀ {o object}, m.heap.get? o = some object →
        object.properties.keys.Pairwise fun key key' =>
          keyAge (m :: older) o key' ≤ keyAge (m :: older) o key := by
  obtain ⟨k, hfits⟩ := c.fits_play depth settings own main
  refine ⟨hfits.history.latest, c.exists_history depth settings own main,
    fun {S older} hpast {o x} hx => ?_, fun {m older} hpast {o object} ho => ?_⟩
  · have hcoherent := hpast.coherent o x hx
    refine ⟨hcoherent.nodup, fun _ => hcoherent.mem_order, hpast.byAge hx, fun hd => ?_⟩
    have hdescriptor := (hcoherent.made hd).coherent
    exact ⟨hdescriptor.kind, hdescriptor.writable, hdescriptor.functions⟩
  · have hhistory : IsHistory (m :: older) := hfits.history.steps.suffix hpast
    have horder := pairwise_keyAge hhistory o
    rwa [Heap.keysOf_eq ho] at horder

/-- Drops a key that stands before another, and adds it again. -/
def moveToEnd : Program Unit Unit :=
  .ask (.data (.createWithPrototype none)) fun
    | .ok (.object o) =>
      .ask (.data (.define o "a" (.data .null {}))) fun _ =>
        .ask (.data (.define o "b" (.data .null {}))) fun _ =>
          .ask (.deleteOwn o "a") fun _ =>
            .ask (.data (.define o "a" (.data .null {}))) fun _ => .done ()
    | _ => .done ()

/-- The key that was dropped stands last in the list, and it is the younger one. -/
theorem keys_moveToEnd :
    ∃ S older o x, Storage.IsHistory (S :: older) ∧
      S.Shows (begetting.play 1 {} () moveToEnd).movie.heap ∧ S o = some x ∧
      x.order = ["b", "a"] ∧ "a" ∈ x.properties ∧
      Storage.age (S :: older) o "a" < Storage.age (S :: older) o "b" := by
  obtain ⟨⟨past, hlatest⟩, ⟨stored, shown, hstored, hshown, hmovies⟩, hrecords, -⟩ :=
    keys_by_age begetting 1 {} () moveToEnd
  rw [hlatest] at hmovies
  obtain ⟨S, _, hS, -, rfl⟩ := List.forall₂_cons_right_iff.mp hmovies
  obtain ⟨newer, older, rfl⟩ := List.append_of_mem (hshown.mem List.mem_cons_self)
  have hpast := hstored.suffix (List.suffix_append newer (S :: older))
  have hkeys : (begetting.play 1 {} () moveToEnd).movie.heap.keysOf
      ⟨(Movie.new {}).heap.slots.size⟩ = ["b", "a"] := by decide +kernel
  cases hget : (begetting.play 1 {} () moveToEnd).movie.heap.get?
      ⟨(Movie.new {}).heap.slots.size⟩ with
  | none =>
    rw [Heap.keysOf, hget] at hkeys
    cases hkeys
  | some object =>
    rw [Heap.keysOf_eq hget] at hkeys
    obtain ⟨x, hx, hholds⟩ := hS.eq_some hget
    have horder : x.order = ["b", "a"] := hholds.order.trans hkeys
    obtain ⟨-, hmem, hage, -⟩ := hrecords hpast hx
    rw [horder] at hage
    exact ⟨S, older, _, x, hpast, hS, hx, horder, (hmem "a").mp (by rw [horder]; simp),
      List.rel_of_pairwise_cons hage (List.mem_singleton_self "a")⟩

end Client

end ActionScript.Session
