import ActionScript.Machine.Construct
import ActionScript.Machine.Write
import ActionScript.Proofs.Correspondence.Edit

/-! # Machines side by side

A machine whose services and built-in routines respect a correspondence respects it in everything
it does: calls, reads, conversions, writes and construction. -/

namespace ActionScript.Correspondence

variable {σ : Type} [Journal σ] {C : Correspondence σ} {m : Machine σ} {r : Matching}

namespace Respects

variable (hm : C.Respects m)
include hm

/-! ## Calls -/

/-- Corresponding machines run the same code alike, on receivers and arguments that are alike. -/
theorem invoke (code : Code) {this this' : Value} (hthis : Value.Alike r this this')
    {args args' : List Value} (hargs : List.Forall₂ (Value.Alike r) args args') :
    C.Runs r (m.invoke code this args) (m.invoke code this' args') Value.Alike := by
  cases code with
  | builtin routine => exact hm.builtin routine hthis hargs
  | host function => exact hm.services.function function hthis hargs

/-- Calling paired functions runs alike. -/
theorem call {f f' : ObjectId} (hf : r.handle f f') {this this' : Value}
    (hthis : Value.Alike r this this') {args args' : List Value}
    (hargs : List.Forall₂ (Value.Alike r) args args') :
    C.Runs r (m.call f this args) (m.call f' this' args') Value.Alike := by
  refine .movie fun {movie movie'} h => ?_
  rw [h.callable? hf, h.describe (.object hf), h.executor]
  split
  · exact .throw (.refl nofun)
  · exact hm.invoke _ hthis hargs
  · exact hm.invoke _ hthis hargs
  · split
    · exact .throw (.refl nofun)
    · exact hm.services.executeFunction _ _ _ hf hthis hargs

/-- Calling alike values runs alike, also where there is no function to call. -/
theorem callValue {f f' : Value} (hf : Value.Alike r f f') {this this' : Value}
    (hthis : Value.Alike r this this') {args args' : List Value}
    (hargs : List.Forall₂ (Value.Alike r) args args') :
    C.Runs r (m.callValue f this args) (m.callValue f' this' args') Value.Alike := by
  have hrefused : ∀ {v v'}, Value.Alike r v v' →
      C.Runs r (do throw (.notCallable ((← getMovie).describe v)))
        (do throw (.notCallable ((← getMovie).describe v'))) Value.Alike := by
    intro v v' hv
    refine .movie fun h => ?_
    rw [h.describe hv]
    exact .throw (.refl nofun)
  cases hf with
  | object ho => exact hm.call ho hthis hargs
  | undefined => exact hrefused .undefined
  | null => exact hrefused .null
  | bool => exact hrefused .bool
  | number => exact hrefused .number
  | string => exact hrefused .string

theorem checkTimeout : C.Runs r m.checkTimeout m.checkTimeout fun _ _ _ => True := by
  refine .movie fun h => ?_
  rw [h.executor]
  split
  · exact hm.services.checkTimeout _
  · exact .pure trivial

/-- Actions are known by their handle, so a paired scope is all they need. -/
theorem executeActions (actions : ActionsId) {scope scope' : ObjectId}
    (hscope : r.handle scope scope') :
    C.Runs r (m.executeActions actions scope) (m.executeActions actions scope')
      Value.Alike := by
  refine .movie fun h => ?_
  rw [h.executor]
  split
  · exact hm.services.executeActions _ _ hscope
  · exact .throw (.refl nofun)

theorem resolveTarget {target target' : Value} (htarget : Value.Alike r target target') :
    C.Updates r (m.resolveTarget target) (m.resolveTarget target')
      fun r' => Option.Rel r'.handle := by
  refine .movie fun h => ?_
  rw [h.executor]
  split
  · exact hm.services.resolveTarget _ htarget
  · exact .pure .none

/-- Both movies tell the same observers, in the same order. -/
theorem broadcast (name : String) :
    C.Updates r (m.broadcast name) (m.broadcast name) fun _ _ _ => True := by
  refine .movie fun h => ?_
  rw [h.normalize, h.observers]
  exact .forM fun observer _ => hm.services.notify observer _

/-! ## Reads -/

/-- Reading one key of paired objects gives alike values, getters included. -/
theorem readKey {o o' : ObjectId} (ho : r.handle o o') (key : String) :
    C.Runs r (m.readKey o key) (m.readKey o' key) Value.Alike := by
  refine .movie fun h => ?_
  rcases optionRel_cases (h.find? ho key) with
    ⟨⟨owner, p⟩, ⟨owner', p'⟩, he, he', _, hp⟩ | ⟨he, he'⟩
  · change Property.Alike r p p' at hp
    simp only [he, he']
    rcases hp.access_cases with ⟨_, ha, ha'⟩ | ⟨g, g', _, _, ha, ha', hg, _⟩
    · simp only [ha, ha']
      exact .pure hp.value
    · simp only [ha, ha']
      cases hg with
      | some hg => exact hm.call hg (.object ho) .nil
      | none => exact .pure .undefined
  · simp only [he, he']
    exact .pure .undefined

theorem read {o o' : ObjectId} (ho : r.handle o o') (name : String) :
    C.Runs r (m.read o name) (m.read o' name) Value.Alike := by
  refine .movie fun h => ?_
  rw [h.normalize]
  exact hm.readKey ho _

theorem askMethods {o o' : ObjectId} (ho : r.handle o o') (methods : List String) :
    C.Runs r (m.askMethods o methods) (m.askMethods o' methods) Value.Alike := by
  induction methods generalizing r with
  | nil => exact .pure (.object ho)
  | cons method rest ih =>
    refine .bind (hm.read ho method) fun hle hf => ?_
    refine .movie fun h => ?_
    rw [h.isCallable hf]
    split
    · exact hm.callValue hf (.object (hle.1 ho)) .nil
    · exact ih (hle.1 ho)

theorem defaultValue {o o' : ObjectId} (ho : r.handle o o') (hint : Machine.Hint) :
    C.Runs r (m.defaultValue o hint) (m.defaultValue o' hint) Value.Alike :=
  hm.askMethods ho hint.methods

/-! ## Conversions -/

omit hm in
/-- Alike primitives are the same number. -/
theorem numberOf_eq (settings : Settings) {v v' : Value} (hv : Value.Alike r v v') :
    settings.numberOf v = settings.numberOf v' := by
  cases hv <;> rfl

omit hm in
/-- Alike primitives are written the same. -/
theorem textOf_eq (settings : Settings) {v v' : Value} (hv : Value.Alike r v v') :
    settings.textOf v = settings.textOf v' := by
  cases hv <;> rfl

omit hm in
/-- A computed result runs alike when it is alike. -/
theorem ofExcept {α β : Type} {post : Matching → α → β → Prop} {x : Except Error α}
    {y : Except Error β} (hxy : Result.Alike r (post r) x y) :
    C.Runs r (MonadExcept.ofExcept x) (MonadExcept.ofExcept y) post := by
  cases hxy with
  | ok h => exact .pure h
  | error h => exact .throw h

omit hm in
/-- Boxing alike values gives paired objects, old or new. -/
theorem toObject {v v' : Value} (hv : Value.Alike r v v') :
    C.Runs r (m.toObject v) (m.toObject v') fun r' o o' => r'.handle o o' :=
  .bind (.edit fun _ _ => .box hv) fun _ hres => ofExcept hres

theorem toPrimitive {v v' : Value} (hv : Value.Alike r v v') (hint : Machine.Hint) :
    C.Runs r (m.toPrimitive v hint) (m.toPrimitive v' hint) Value.Alike := by
  cases hv with
  | object ho => exact hm.defaultValue ho hint
  | undefined => exact .pure .undefined
  | null => exact .pure .null
  | bool => exact .pure .bool
  | number => exact .pure .number
  | string => exact .pure .string

/-- Alike values convert to the same number. -/
theorem toNumber {v v' : Value} (hv : Value.Alike r v v') :
    C.Runs r (m.toNumber v) (m.toNumber v') fun _ x x' => x = x' := by
  refine .bind (hm.toPrimitive hv .number) fun _ hp => ?_
  refine .movie fun h => ?_
  rw [h.settings, numberOf_eq _ hp]
  exact .pure rfl

theorem toInteger {v v' : Value} (hv : Value.Alike r v v') :
    C.Runs r (m.toInteger v) (m.toInteger v') fun _ x x' => x = x' :=
  .bind (hm.toNumber hv) fun _ hx => .pure (by rw [hx])

theorem toInt32 {v v' : Value} (hv : Value.Alike r v v') :
    C.Runs r (m.toInt32 v) (m.toInt32 v') fun _ x x' => x = x' :=
  .bind (hm.toNumber hv) fun _ hx => .pure (by rw [hx])

theorem toUInt32 {v v' : Value} (hv : Value.Alike r v v') :
    C.Runs r (m.toUInt32 v) (m.toUInt32 v') fun _ x x' => x = x' :=
  .bind (hm.toNumber hv) fun _ hx => .pure (by rw [hx])

theorem readElement {a a' : ObjectId} (ha : r.handle a a') (i : Nat) :
    C.Runs r (m.readElement a i) (m.readElement a' i) Value.Alike := by
  rw [Machine.readElement, Machine.readElement]
  split
  · exact .bind hm.checkTimeout fun hle _ => hm.readKey (hle.1 ha) _
  · exact hm.readKey ha _

/-- Paired arrays have as many elements, alike one by one. -/
theorem elements {a a' : ObjectId} (ha : r.handle a a') :
    C.Runs r (m.elements a) (m.elements a') fun r' => List.Forall₂ (Value.Alike r') := by
  refine .bind (hm.read ha _) fun hle hlength => ?_
  refine .bind (hm.toUInt32 hlength) fun {r₁ count count'} hle' hcount => ?_
  refine .movie fun h => ?_
  rw [hcount, h.settings]
  have hread : ∀ r' i j, r₁ ≤ r' → i = j →
      C.Runs r' (m.readElement a i) (m.readElement a' j) Value.Alike := by
    rintro r' i _ hle'' rfl
    exact hm.readElement (hle''.1 (hle'.1 (hle.1 ha))) i
  exact .mapM (fun _ => id) Value.Alike.mono hread
    (List.forall₂_same.mpr fun _ _ => rfl)

theorem textOfObject {o o' : ObjectId} (ho : r.handle o o') :
    C.Runs r (m.textOfObject o) (m.textOfObject o') fun _ x x' => x = x' := by
  refine .bind (hm.defaultValue ho .string) fun _ hp => ?_
  refine .movie fun h => ?_
  rw [h.isCallable hp, h.settings, textOf_eq _ hp]
  exact .pure rfl

/-- Values are written the same when their arrays are. -/
theorem textWith {array array' : ObjectId → Run σ String}
    (harray : ∀ {o o'}, r.handle o o' → C.Runs r (array o) (array' o') fun _ x x' => x = x')
    {v v' : Value} (hv : Value.Alike r v v') :
    C.Runs r (m.textWith array v) (m.textWith array' v') fun _ x x' => x = x' := by
  refine .movie fun {movie movie'} h => ?_
  have htext : movie.settings.textOf v = movie'.settings.textOf v' := by
    rw [h.settings, textOf_eq _ hv]
  cases hv with
  | object ho =>
    show C.Runs r (if movie.heap.isArray _ then _ else _) (if movie'.heap.isArray _ then _ else _) _
    rw [h.isArray ho]
    split
    · exact harray ho
    · exact hm.textOfObject ho
  | undefined => exact .pure htext
  | null => exact .pure htext
  | bool => exact .pure htext
  | number => exact .pure htext
  | string => exact .pure htext

/-- Alike arrays within alike paths have the same text. -/
theorem arrayText (n : Nat) {path path' : List ObjectId}
    (hpath : List.Forall₂ r.handle path path') {a a' : ObjectId} (ha : r.handle a a') :
    C.Runs r (m.arrayText n path a) (m.arrayText n path' a') fun _ x x' => x = x' := by
  induction n generalizing r path path' a a' with
  | zero =>
    refine .of_alike fun h => ?_
    have hmem : path.contains a = path'.contains a' := by
      rw [Bool.eq_iff_iff, List.contains_iff_mem, List.contains_iff_mem]
      exact List.rel_mem h.handles ha hpath
    rw [Machine.arrayText, Machine.arrayText, hmem]
    split
    · exact .pure rfl
    · exact .throw (.refl nofun)
  | succ n ih =>
    refine .of_alike fun h => ?_
    have hmem : path.contains a = path'.contains a' := by
      rw [Bool.eq_iff_iff, List.contains_iff_mem, List.contains_iff_mem]
      exact List.rel_mem h.handles ha hpath
    rw [Machine.arrayText, Machine.arrayText, hmem]
    split
    · exact .pure rfl
    · refine .bind (hm.elements ha) fun {r₁ _ _} hle hvs => ?_
      have htext : ∀ r' v v', r₁ ≤ r' → Value.Alike r' v v' →
          C.Runs r' (m.textWith (m.arrayText n (a :: path)) v)
            (m.textWith (m.arrayText n (a' :: path')) v') fun _ x x' => x = x' := by
        intro r' v v' hle' hv
        have hpath := (List.Forall₂.cons ha hpath).imp fun _ _ h => hle'.1 (hle.1 h)
        exact hm.textWith (ih hpath) hv
      refine .bind (.mapM Value.Alike.mono (fun _ => id) htext hvs) fun _ hparts => ?_
      rw [List.forall₂_eq_eq_eq] at hparts
      rw [hparts]
      exact .pure rfl

/-- Alike values are written the same: both printers keep to the same bound and pair their paths. -/
theorem toText {v v' : Value} (hv : Value.Alike r v v') :
    C.Runs r (m.toText v) (m.toText v') fun _ x x' => x = x' := by
  refine .movie fun h => hm.textWith (fun ha => ?_) hv
  rw [h.extent ha]
  exact hm.arrayText _ .nil ha

/-- Alike values name the same key. -/
theorem toKey {v v' : Value} (hv : Value.Alike r v v') :
    C.Runs r (m.toKey v) (m.toKey v') fun _ x x' => x = x' := by
  have hnamed : C.Runs r (do let name ← m.toText v; return (← getMovie).normalize name)
      (do let name ← m.toText v'; return (← getMovie).normalize name) fun _ x x' => x = x' := by
    refine .bind (hm.toText hv) fun {_ name name'} _ hname => ?_
    refine .movie fun h => ?_
    rw [hname, h.normalize]
    exact .pure rfl
  cases hv with
  | number => exact .pure rfl
  | undefined => exact hnamed
  | null => exact hnamed
  | bool => exact hnamed
  | string => exact hnamed
  | object _ => exact hnamed

theorem readAt {o o' : ObjectId} (ho : r.handle o o') {v v' : Value}
    (hv : Value.Alike r v v') : C.Runs r (m.readAt o v) (m.readAt o' v') Value.Alike := by
  refine .bind (hm.toKey hv) fun {_ key key'} hle hkey => ?_
  rw [hkey]
  exact hm.readKey (hle.1 ho) _

/-! ## Writes -/

/-- The length of paired arrays is raised by the same write, or by none. -/
theorem syncLength {a a' : ObjectId} (ha : r.handle a a') (key : String) :
    C.Runs r (m.syncLength a key) (m.syncLength a' key) fun _ _ _ => True := by
  refine .movie fun {movie movie'} h => ?_
  have hlength : Value.Alike r
      (((movie.heap.own? a Movie.lengthKey).map Property.value).getD .undefined)
      (((movie'.heap.own? a' Movie.lengthKey).map Property.value).getD .undefined) := by
    rcases optionRel_cases (h.own? ha Movie.lengthKey) with ⟨p, p', hp, hp', halike⟩ | ⟨hp, hp'⟩
    · rw [hp, hp']
      exact halike.value
    · rw [hp, hp']
      exact .undefined
  dsimp only
  split
  · refine .bind (hm.toNumber hlength) fun {_ n n'} hle hn => ?_
    rw [hn]
    split
    · exact .lift (.drop _ (hle.1 ha))
    · exact .pure trivial
  · split
    · exact .pure trivial
    · refine .bind (hm.toUInt32 hlength) fun {_ n n'} hle hn => ?_
      rw [hn]
      split
      · exact .edit fun _ _ => .setLength (hle.1 ha) _
      · exact .pure trivial

theorem afterWrite {o o' : ObjectId} (ho : r.handle o o') (key : String) :
    C.Runs r (m.afterWrite o key) (m.afterWrite o' key) fun _ _ _ => True := by
  have hnotify : ∀ {r'}, C.Runs r'
      (do if (← getMovie).observers.contains key then m.broadcast key)
      (do if (← getMovie).observers.contains key then m.broadcast key) fun _ _ _ => True := by
    intro r'
    refine .movie fun h => ?_
    rw [h.observers]
    split
    · exact .lift (hm.broadcast key)
    · exact .pure trivial
  refine .movie fun h => ?_
  rw [h.isArray ho]
  dsimp only
  split
  · exact .bind (hm.syncLength ho key) fun _ _ => hnotify
  · exact hnotify

/-- Paired watchers are called alike and give alike values to store. -/
theorem watched {o o' : ObjectId} (ho : r.handle o o') {w w' : Option Watcher}
    (hw : Option.Rel (Watcher.Alike r) w w') {old old' new new' : Value}
    (hold : Value.Alike r old old') (hnew : Value.Alike r new new') :
    C.Runs r (m.watched o w old new) (m.watched o' w' old' new') Value.Alike := by
  cases hw with
  | none => exact .pure hnew
  | some hw =>
    rw [Machine.watched, Machine.watched, hw.name]
    exact hm.call hw.callback (.object ho) (.cons .string (.cons hold (.cons hnew
      (.cons hw.userData .nil))))

theorem callSetter {o o' : ObjectId} (ho : r.handle o o') {f f' : Option ObjectId}
    (hf : Option.Rel r.handle f f') {v v' : Value} (hv : Value.Alike r v v') :
    C.Runs r (m.callSetter o f v) (m.callSetter o' f' v') fun _ _ _ => True := by
  cases hf with
  | some hf => exact .discard (hm.call hf (.object ho) (.cons hv .nil))
  | none => exact .pure trivial

section Slot

variable {o o' : ObjectId} (ho : r.handle o o') {p p' : Property} (hp : Property.Alike r p p')
  {v v' : Value} (hv : Value.Alike r v v')
include ho hv

/-- Writing an own slot runs alike when slot, value and spelling are alike. -/
theorem writeOwn (key : String) {name name' : String} (hname : r.spelling name name')
    (hp : Property.Alike r p p') :
    C.Runs r (m.writeOwn o key name p v) (m.writeOwn o' key name' p' v') fun _ _ _ => True := by
  refine .bind (hm.watched ho hp.watcher hp.value hv) fun hle hv => ?_
  have ho := hle.1 ho
  refine .movie fun h => ?_
  rw [optionRel_isSome (h.slot? ho key)]
  dsimp only
  split
  · refine .bind (.edit fun _ _ => .modifySlot ho key fun hp => hp.withValue hv) fun hle' _ => ?_
    exact hm.afterWrite (hle'.1 ho) key
  · refine .bind (.edit fun _ _ => .storeAs ho key (hle.2 hname) (.data hv {})) fun hle' _ => ?_
    exact hm.afterWrite (hle'.1 ho) key

theorem writeThrough (hp : Property.Alike r p p') :
    C.Runs r (m.writeThrough o p v) (m.writeThrough o' p' v') fun _ _ _ => True := by
  have hset : ∀ {r' w w'}, r ≤ r' → Value.Alike r' w w' → C.Runs r'
      (m.callSetter o p.setter w) (m.callSetter o' p'.setter w') fun _ _ _ => True :=
    fun hle hw => hm.callSetter (hle.1 ho) (optionRel_mono hle.1 hp.setter) hw
  have hwatch : ∀ {r' old old'}, r ≤ r' → Value.Alike r' old old' → C.Runs r'
      (m.watched o p.watcher old v) (m.watched o' p'.watcher old' v') Value.Alike := by
    intro r' old old' hle hold
    have hwatcher := optionRel_mono (Watcher.Alike.mono hle) hp.watcher
    exact hm.watched (hle.1 ho) hwatcher hold (hv.mono hle)
  unfold Machine.writeThrough
  rcases optionRel_cases hp.watcher with ⟨w, w', hw, hw', _⟩ | ⟨hw, hw'⟩
  · rw [hw, hw'] at hwatch ⊢
    rcases optionRel_cases hp.getter with ⟨f, f', hf, hf', hgetter⟩ | ⟨hf, hf'⟩
    · rw [hf, hf']
      refine .bind (hm.call hgetter (.object ho) .nil) fun hle hold => ?_
      exact .bind (hwatch hle hold) fun hle' hv => hset (hle.trans hle') hv
    · rw [hf, hf']
      have hold : C.Runs r (pure .undefined) (pure .undefined) Value.Alike := .pure .undefined
      refine .bind hold fun hle hold => ?_
      exact .bind (hwatch hle hold) fun hle' hv => hset (hle.trans hle') hv
  · rw [hw, hw']
    exact hset (le_refl r) hv

/-- Making a slot runs alike when what the chain has for its key is. -/
theorem writeNew (key : String) {name name' : String} (hname : r.spelling name name')
    {found found' : Option Property} (hfound : Option.Rel (Property.Alike r) found found') :
    C.Runs r (m.writeNew o key name found v) (m.writeNew o' key name' found' v')
      fun _ _ _ => True := by
  have hstore : ∀ {r' w w'}, r ≤ r' → Value.Alike r' w w' → C.Runs r'
      (do
        Movie.storeAs o key name (.data w ((found.map Property.flags).getD {}))
        m.afterWrite o key)
      (do
        Movie.storeAs o' key name' (.data w' ((found'.map Property.flags).getD {}))
        m.afterWrite o' key) fun _ _ _ => True := by
    intro r' w w' hle hw
    have hflags : (found.map Property.flags).getD {} = (found'.map Property.flags).getD {} := by
      cases hfound with
      | some hp => exact hp.flags
      | none => rfl
    rw [hflags]
    refine .bind (.edit fun _ _ => .storeAs (hle.1 ho) key (hle.2 hname) (.data hw _))
      fun hle' _ => ?_
    exact hm.afterWrite (hle'.1 (hle.1 ho)) key
  cases hfound with
  | some hp =>
    exact .bind (hm.watched ho hp.watcher hp.value hv) fun hle hw => hstore hle hw
  | none => exact hstore (le_refl r) hv

/-- Writing a key runs alike, wherever in the chain the slot is. -/
theorem writeKey (key : String) {name name' : String} (hname : r.spelling name name') :
    C.Runs r (m.writeKey o key name v) (m.writeKey o' key name' v') fun _ _ _ => True := by
  refine .movie fun {movie movie'} h => ?_
  have hslot := h.slot? ho key
  have hdata : Option.Rel (Property.Alike r) ((movie.heap.slot? o key).filter Property.isData)
      ((movie'.heap.slot? o' key).filter Property.isData) := by
    rcases optionRel_cases hslot with ⟨p, p', hp, hp', halike⟩ | ⟨hp, hp'⟩
    · rw [hp, hp', Option.filter_some, Option.filter_some, halike.isData]
      split
      · exact .some halike
      · exact .none
    · rw [hp, hp']
      exact .none
  have hfound : Option.Rel (Property.Alike r) ((movie.heap.find? o key).map Prod.snd)
      ((movie'.heap.find? o' key).map Prod.snd) := by
    rcases optionRel_cases (h.find? ho key) with ⟨e, e', he, he', halike⟩ | ⟨he, he'⟩
    · rw [he, he']
      exact .some halike.2
    · rw [he, he']
      exact .none
  dsimp only
  rw [optionRel_isNone hslot, h.canPut ho, hv.isUndefined]
  split
  · exact .discard (.edit fun _ _ => .setPrototype ho hv.object?)
  split
  · exact .pure trivial
  rcases optionRel_cases hdata with ⟨p, p', hp, hp', halike⟩ | ⟨hp, hp'⟩
  · rw [hp, hp']
    exact hm.writeOwn ho hv key hname halike
  rw [hp, hp']
  dsimp only
  split
  · exact .pure trivial
  rcases optionRel_cases hfound with ⟨p, p', hp, hp', halike⟩ | ⟨hp, hp'⟩
  · rw [hp, hp']
    dsimp only
    rw [halike.isAccessor]
    split
    · exact hm.writeThrough ho hv halike
    · exact hm.writeNew ho hv key hname (.some halike)
  · rw [hp, hp']
    exact hm.writeNew ho hv key hname .none

/-- Writing by name runs alike. -/
theorem write (name : String) :
    C.Runs r (m.write o name v) (m.write o' name v') fun _ _ _ => True := by
  refine .movie fun h => ?_
  rw [h.normalize]
  exact hm.writeKey ho hv _ (h.spellings name)

theorem writeAt {k k' : Value} (hk : Value.Alike r k k') :
    C.Runs r (m.writeAt o k v) (m.writeAt o' k' v') fun _ _ _ => True := by
  have hkeyed : C.Runs r (do let key ← m.toKey k; m.writeKey o key key v)
      (do let key ← m.toKey k'; m.writeKey o' key key v') fun _ _ _ => True := by
    refine .bind (hm.toKey hk) fun {_ key key'} hle hkey => ?_
    rw [hkey]
    refine .of_alike fun h => ?_
    exact hm.writeKey (hle.1 ho) (hv.mono hle) key' (h.spellings key')
  cases hk with
  | string => exact hm.write ho hv _
  | undefined => exact hkeyed
  | null => exact hkeyed
  | bool => exact hkeyed
  | number => exact hkeyed
  | object _ => exact hkeyed

/-! ## Deletion -/

omit hv in
/-- Deleting a key of paired objects gives the same answer and keeps the movies alike. -/
theorem deleteKey (key : String) :
    C.Updates r (m.deleteKey o key) (m.deleteKey o' key) fun _ b b' => b = b' := by
  refine .movie fun {movie movie'} h => ?_
  rcases optionRel_cases (h.own? ho key) with ⟨p, p', hp, hp', halike⟩ | ⟨hp, hp'⟩
  · rw [hp, hp']
    dsimp only
    rw [halike.isDeletable]
    split
    · have hremove : C.Updates r (liftM (Movie.modifyHeap (·.remove o key)))
          (liftM (Movie.modifyHeap (·.remove o' key))) fun _ _ _ => True := by
        simp only [Heap.remove_eq_modify]
        exact .drop _ ho
      refine .bind hremove fun hle _ => ?_
      refine .movie fun h => ?_
      rw [h.observers]
      split
      · exact .bind (hm.broadcast key) fun _ _ => .pure rfl
      · exact .pure rfl
    · exact .pure rfl
  · rw [hp, hp']
    exact .pure rfl

omit hv in
theorem delete (name : String) :
    C.Updates r (m.delete o name) (m.delete o' name) fun _ b b' => b = b' := by
  refine .movie fun h => ?_
  rw [h.normalize]
  exact hm.deleteKey ho _

end Slot

/-! ## Construction -/

theorem instancePrototype {c c' : Value} (hc : Value.Alike r c c') {p p' : ObjectId}
    (hp : r.handle p p') :
    C.Runs r (m.instancePrototype c p) (m.instancePrototype c' p')
      fun r' o o' => r'.handle o o' := by
  cases hc with
  | object ho =>
    refine .bind (hm.read ho _) fun hle hv => ?_
    cases hv with
    | object hq => exact .pure hq
    | _ => exact .pure (hle.1 hp)
  | _ => exact .pure hp

/-- A constructor runs alike: the new instances are paired, then its body runs. -/
theorem instantiate {c c' : ObjectId} (hc : r.handle c c') {body body' : Value → Run σ Value}
    (hbody : ∀ r' v v', r ≤ r' → Value.Alike r' v v' →
      C.Runs r' (body v) (body' v') Value.Alike) :
    C.Runs r (m.instantiate c body) (m.instantiate c' body') Value.Alike := by
  refine .movie fun h => ?_
  refine .bind (hm.instancePrototype (.object hc) h.objectPrototype) fun hle hp => ?_
  refine .bind (.edit fun _ _ => .create (.some hp) _) fun hle₁ ho => ?_
  have hle₁ := hle.trans hle₁
  refine .bind (.edit fun _ _ => .define ho _ (.data (.object (hle₁.1 hc)) _)) fun hle₂ _ => ?_
  refine .bind (hbody _ _ _ (hle₁.trans hle₂) (.object (hle₂.1 ho))) fun hle₃ hres => ?_
  rw [hres.isObject]
  split
  · exact .pure hres
  · exact .pure (.object (hle₃.1 (hle₂.1 ho)))

/-- Constructing with paired functions gives alike values. -/
theorem construct {f f' : ObjectId} (hf : r.handle f f') {args args' : List Value}
    (hargs : List.Forall₂ (Value.Alike r) args args') :
    C.Runs r (m.construct f args) (m.construct f' args') Value.Alike := by
  refine .movie fun h => ?_
  rw [h.callable? hf, h.describe (.object hf)]
  split
  · exact .throw (.refl nofun)
  · exact hm.invoke _ (.object hf) hargs
  · exact .throw (.refl nofun)
  · refine hm.instantiate hf fun r' _ _ hle hthis => ?_
    exact hm.call (hle.1 hf) hthis (hargs.imp fun _ _ => Value.Alike.mono hle)

/-! ## Static state -/

omit hm in
/-- Static states of alike classes are paired, found or made. -/
theorem staticStateOf {key key' : ClassKey} (hkey : ClassKey.Alike r key key')
    {start start' : ObjectId → Run σ Unit}
    (hstart : ∀ r' o o', r ≤ r' → r'.handle o o' →
      C.Runs r' (start o) (start' o') fun _ _ _ => True) :
    C.Runs r (Machine.staticStateOf key start) (Machine.staticStateOf key' start')
      fun r' o o' => r'.handle o o' := by
  refine .movie fun h => ?_
  have hfind := h.staticStates.find? (ClassKey.alike_biUnique h.handles) hkey
  rcases optionRel_cases hfind with ⟨o, o', ho, ho', hstate⟩ | ⟨ho, ho'⟩
  · rw [ho, ho']
    exact .pure hstate
  · rw [ho, ho']
    refine .bind (.edit fun _ _ => .create .none _) fun hle ho => ?_
    refine .bind (.edit fun _ _ => .recordStatic (hkey.mono hle) ho) fun hle' _ => ?_
    refine .bind (hstart _ _ _ (hle.trans hle') (hle'.1 ho)) fun hle'' _ => ?_
    exact .pure (hle''.1 (hle'.1 ho))

theorem staticState (cls : HostClass) :
    C.Runs r (m.staticState cls) (m.staticState cls) fun r' o o' => r'.handle o o' :=
  staticStateOf .host fun _ _ _ _ ho => hm.services.initializeClass cls ho

theorem classState {c c' : ObjectId} (hc : r.handle c c') :
    C.Runs r (m.classState c) (m.classState c') fun r' o o' => r'.handle o o' := by
  refine staticStateOf (.object hc) fun r' _ _ hle ho => ?_
  refine .movie fun h => ?_
  have hfind := optionRel_eq (h.initializers.find? h.handles (hle.1 hc))
  rw [hfind]
  split
  · exact .discard (hm.invoke _ (.object ho) (.cons (.object (hle.1 hc)) .nil))
  · exact .pure trivial

end Respects

end ActionScript.Correspondence
