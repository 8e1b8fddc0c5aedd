import ActionScript.Proofs.Alike.Spelling
import ActionScript.Proofs.Session.Renaming

/-! # The case of names does not show

Up to version 6 the case of a name does not count. Two runs of the same calls whose names differ in
case only have the same answers, up to the spellings that enumeration shows, and end in movies that
differ in remembered spellings only (`Session.nameCase_unobservable`). The runs are kept side by
side as respelled movies, in which handles stand for themselves: such movies are asked for the
slots of the same keys, so they part in no answer but the names that they show. -/

namespace ActionScript

variable {τ : Type} [Journal τ]

/-- Runs on movies that differ in spellings. The matching never grows: new objects get the same
handle in both runs. -/
def upToCase (A : Agreement τ) : Correspondence τ where
  state r s t :=
    r = .caseless ∧ Respelled s.movie t.movie ∧ A.holds .caseless s.embedder t.embedder
  editing s t r m m' :=
    r = .caseless ∧ Respelled m m' ∧ A.holds .caseless s.embedder t.embedder
  start := id
  finish := fun h => ⟨h.1, h.2.1, A.record h.2.1.alike h.2.2⟩
  alike := by
    rintro _ _ _ _ _ ⟨rfl, h, _⟩
    exact h.alike
  allocate := by
    rintro _ _ _ _ _ _ _ ⟨rfl, h, he⟩ hx
    obtain ⟨hhandle, h⟩ := h.allocate hx
    exact ⟨_, le_refl _, hhandle, rfl, h, he⟩
  modify := by
    rintro _ _ _ _ _ o _ _ _ ⟨rfl, h, he⟩ ⟨⟩ _ _ hf
    exact ⟨rfl, h.modify o hf, he⟩
  setPrototype := by
    rintro _ _ _ _ _ o _ p p' ⟨rfl, h, he⟩ ⟨⟩ hp
    rw [← optionRel_eq hp]
    exact ⟨rfl, h.setPrototype o p, he⟩
  replace := by
    rintro _ _ _ _ _ _ _ ⟨rfl, h, he⟩ halike hsettings hheap hheap'
    exact ⟨rfl, h.replace halike hsettings hheap hheap', he⟩
  drop := by
    rintro _ s t o _ p ⟨rfl, h, he⟩ ⟨⟩
    have hdrop : Respelled { s.movie with heap := s.movie.heap.modify o (Object.dropSlots p) }
        { t.movie with heap := t.movie.heap.modify o (Object.dropSlots p) } :=
      h.modify o fun hx => { hx with properties := hx.properties.eraseWhere p }
    exact ⟨rfl, hdrop, A.record hdrop.alike he⟩

/-- The embedder does not look at spellings: it answers alike data alike. -/
def Host.IgnoresCase (host : Host τ) (A : Agreement τ) : Prop :=
  ∀ {m}, (upToCase A).Respects m → (upToCase A).Serves (host m)

namespace Session

/-! ## Calls by name -/

/-- What is asked of the slot of a name. -/
inductive SlotCall where
  | read
  | write (value : Value)
  | has
  | hasOwn
  | canPut
  | find
  | own
  | define (slot : Property)
  | delete
  | deleteOwn

inductive NamedCall where
  | slot (o : ObjectId) (name : String) (call : SlotCall)
  | flags (o : ObjectId) (names : List String) (set clear : Flags)
  /-- Any other call, without a name or by one that both runs spell alike. -/
  | other (call : Call)

inductive NamedReply where
  | reply (reply : Reply)
  | slot (slot : Option Property)

def SlotCall.perform (m : Machine τ) (o : ObjectId) (name : String) : SlotCall → Run τ NamedReply
  | read => return .reply (.value (← m.read o name))
  | write value => do
    m.write o name value
    return .reply .nothing
  | has => return .reply (.flag ((← getMovie).has o name))
  | hasOwn => return .reply (.flag ((← getMovie).hasOwn o name))
  | canPut => return .reply (.flag ((← getMovie).canPut o name))
  | find => return .slot ((← getMovie).find? o name)
  | own => return .slot ((← getMovie).own? o name)
  | define slot => do
    Movie.define o name slot
    return .reply .nothing
  | delete => return .reply (.flag (← m.delete o name))
  | deleteOwn => return .reply (.flag (← Movie.deleteOwn o name))

def NamedCall.perform (m : Machine τ) : NamedCall → Run τ NamedReply
  | slot o name call => call.perform m o name
  | flags o names set clear => do
    Movie.setFlags o (some names) set clear
    return .reply .nothing
  | other call => return .reply (← call.perform m)

/-- The calls are the same but for the case of their names. -/
inductive NamedCall.SameButCase : NamedCall → NamedCall → Prop
  | slot : Text.lower name = Text.lower name' →
    SameButCase (.slot o name call) (.slot o name' call)
  | flags {set clear : Flags} :
    List.Forall₂ (fun name name' => Text.lower name = Text.lower name') names names' →
    SameButCase (.flags o names set clear) (.flags o names' set clear)
  | other : SameButCase (.other call) (.other call)

/-- The reply with all spellings in lower case. -/
def Reply.folded : Reply → Reply
  | names ns => names (ns.map Text.lower)
  | reply => reply

def NamedReply.folded : NamedReply → NamedReply
  | reply r => reply r.folded
  | slot p => slot (p.map Property.folded)

/-- Makes calls one after the other, whether they fail or not. -/
def namedAnswers (m : Machine τ) : List NamedCall → Update τ (List (Except Error NamedReply))
  | [] => return []
  | call :: calls => do
    let answer ← (call.perform m).run
    let later ← namedAnswers m calls
    return answer :: later

/-! ## Calls side by side -/

theorem Reply.Alike.folded_eq {x y : Reply} (h : Reply.Alike .caseless x y) :
    x.folded = y.folded := by
  cases h with
  | @names ns ns' hns =>
    have hlower : List.Forall₂ Eq (ns.map Text.lower) (ns'.map Text.lower) :=
      List.forall₂_map_left_iff.mpr (List.forall₂_map_right_iff.mpr hns)
    rw [List.forall₂_eq_eq_eq] at hlower
    rw [folded, folded, hlower]
  | value hv => rw [hv.eq_of_caseless]
  | values hvs =>
    have hvs := hvs.imp fun _ _ => Value.Alike.eq_of_caseless
    rw [List.forall₂_eq_eq_eq] at hvs
    rw [hvs]
  | object ho => rw [show _ = _ from ho]
  | object? ho => rw [optionRel_eq ho]
  | objects ho hp => rw [show _ = _ from ho, show _ = _ from hp]
  | nothing | flag | count | number | text | actions => rfl

inductive NamedReply.Alike (r : Matching) : NamedReply → NamedReply → Prop
  | reply : Reply.Alike r x y → Alike r (.reply x) (.reply y)
  | slot : Option.Rel (Property.Alike r) p q → Alike r (.slot p) (.slot q)

theorem NamedReply.Alike.folded_eq {x y : NamedReply} (h : NamedReply.Alike .caseless x y) :
    x.folded = y.folded := by
  cases h with
  | reply hxy => rw [folded, folded, hxy.folded_eq]
  | slot hpq =>
    cases hpq with
    | some hp => rw [folded, folded, Option.map_some, Option.map_some, hp.folded_eq]
    | none => rfl

theorem answer_folded_eq {x y : Except Error NamedReply}
    (h : Result.Alike .caseless (NamedReply.Alike .caseless) x y) :
    x.map NamedReply.folded = y.map NamedReply.folded := by
  cases h with
  | ok hreply => exact congrArg Except.ok hreply.folded_eq
  | error he => exact congrArg Except.error he.eq_of_caseless

section Caseless

variable {A : Agreement τ} {α β : Type} {post : Matching → α → β → Prop}

theorem edits_respelled {s t : State τ} {f : Movie → Edit α} {g : Movie → Edit β}
    (h : ∀ {m m'}, Respelled m m' → (upToCase A).Edits s t .caseless (f m) (g m') post) :
    (upToCase A).Edits s t .caseless (get >>= f) (get >>= g) post :=
  fun m m' hm => h hm.2.1 m m' hm

theorem updates_respelled {f : Movie → Update τ α} {g : Movie → Update τ β}
    (h : ∀ {m m'}, Respelled m m' → (upToCase A).Updates .caseless (f m) (g m') post) :
    (upToCase A).Updates .caseless (liftM getMovie >>= f) (liftM getMovie >>= g) post :=
  fun _ _ hs => h hs.2.1 _ _ ((upToCase A).finish hs)

theorem runs_respelled {f : Movie → Run τ α} {g : Movie → Run τ β}
    (h : ∀ {m m'}, Respelled m m' → (upToCase A).Runs .caseless (f m) (g m') post) :
    (upToCase A).Runs .caseless (liftM getMovie >>= f) (liftM getMovie >>= g) post :=
  fun _ _ hs => h hs.2.1 _ _ ((upToCase A).finish hs)

variable {m : Machine τ}

theorem createActions_runs (buffer : BufferId) (bytes : List UInt8) (name : String)
    (parent : Option ActionsId) :
    (upToCase A).Runs .caseless ((Call.createActions buffer bytes name parent).perform m)
      ((Call.createActions buffer bytes name parent).perform m) Reply.Alike := by
  have hedit : ∀ s t, (upToCase A).Edits s t .caseless
      (Movie.createActions buffer bytes name parent)
      (Movie.createActions buffer bytes name parent) fun _ id id' => id = id' := by
    rintro s t movie movie' ⟨_, h, he⟩
    have hactions : movie.actions.create movie.heap.actions buffer bytes name parent =
        movie'.actions.create movie'.heap.actions buffer bytes name parent := by
      rw [← movie.heap.actions_folded, ← movie'.heap.actions_folded, h.heap_folded_eq,
        h.alike.actions]
    rw [Prod.ext_iff] at hactions
    refine ⟨_, le_refl _, ⟨rfl, h.replace ?_ rfl rfl rfl, he⟩, hactions.1⟩
    exact { h.alike with actions := hactions.2 }
  refine .bind (.edit hedit) fun _ hid => ?_
  rw [hid]
  exact .pure .actions

theorem collect_runs (extra : List ObjectId) :
    (upToCase A).Runs .caseless ((Call.collect extra).perform m)
      ((Call.collect extra).perform m) Reply.Alike := by
  have hedit : ∀ s t, (upToCase A).Edits s t .caseless (Movie.collectGarbage extra)
      (Movie.collectGarbage extra) fun _ n n' => n = n' := by
    rintro s t movie movie' ⟨_, h, he⟩
    obtain ⟨hcount, h⟩ := h.collectGarbage extra
    exact ⟨_, le_refl _, ⟨rfl, h, he⟩, hcount⟩
  refine .bind (.edit hedit) fun _ hn => ?_
  rw [hn]
  exact .pure .count

theorem setFlags_runs (o : ObjectId) {names names' : List String} (set clear : Flags)
    (hnames : List.Forall₂ (fun name name' => Text.lower name = Text.lower name') names names') :
    (upToCase A).Runs .caseless ((NamedCall.flags o names set clear).perform m)
      ((NamedCall.flags o names' set clear).perform m) NamedReply.Alike := by
  have hedit : ∀ s t, (upToCase A).Edits s t .caseless
      (Movie.setFlags o (some names) set clear) (Movie.setFlags o (some names') set clear)
      fun _ _ _ => True := by
    intro s t
    refine edits_respelled fun {movie movie'} h => ?_
    have hkeys : names.map movie.normalize = names'.map movie'.normalize := by
      rw [← List.forall₂_eq_eq_eq, List.forall₂_map_left_iff, List.forall₂_map_right_iff]
      exact hnames.imp fun _ _ hname => h.normalize hname
    simp only [hkeys]
    exact .modifySlots rfl _ fun hp => hp.adjust set clear
  exact .bind (.edit hedit) fun _ _ => .pure (.reply .nothing)

variable (hm : (upToCase A).Respects m)
include hm

theorem SlotCall.perform_runs (call : SlotCall) (o : ObjectId) {name name' : String}
    (hname : Text.lower name = Text.lower name') :
    (upToCase A).Runs .caseless (call.perform m o name) (call.perform m o name')
      NamedReply.Alike := by
  cases call with
  | read =>
    have hread : (upToCase A).Runs .caseless (m.read o name) (m.read o name') Value.Alike := by
      refine runs_respelled fun h => ?_
      rw [h.normalize hname]
      exact hm.readKey rfl _
    exact .bind hread fun _ hv => .pure (.reply (.value hv))
  | write value =>
    have hwrite : (upToCase A).Runs .caseless (m.write o name value) (m.write o name' value)
        fun _ _ _ => True := by
      refine runs_respelled fun h => ?_
      rw [h.normalize hname]
      exact hm.writeKey rfl (value_known fun _ _ => rfl) _ hname
    exact .bind hwrite fun _ _ => .pure (.reply .nothing)
  | has =>
    refine runs_respelled fun h => ?_
    rw [Movie.has, Movie.has, Movie.find?, Movie.find?, h.normalize hname, Option.isSome_map,
      Option.isSome_map, optionRel_isSome (h.alike.find? rfl _)]
    exact .pure (.reply .flag)
  | hasOwn =>
    refine runs_respelled fun h => ?_
    rw [Movie.hasOwn, Movie.hasOwn, Movie.own?, Movie.own?, h.normalize hname,
      optionRel_isSome (h.alike.own? rfl _)]
    exact .pure (.reply .flag)
  | canPut =>
    refine runs_respelled fun h => ?_
    rw [Movie.canPut, Movie.canPut, h.normalize hname, h.alike.canPut rfl]
    exact .pure (.reply .flag)
  | find =>
    refine runs_respelled fun {movie movie'} h => .pure (.slot ?_)
    rw [Movie.find?, Movie.find?, h.normalize hname]
    rcases optionRel_cases (h.alike.find? (o := o) rfl (movie'.normalize name')) with
      ⟨e, e', he, he', halike⟩ | ⟨he, he'⟩
    · rw [he, he']
      exact .some halike.2
    · rw [he, he']
      exact .none
  | own =>
    refine runs_respelled fun h => .pure (.slot ?_)
    rw [Movie.own?, Movie.own?, h.normalize hname]
    exact h.alike.own? rfl _
  | define slot =>
    have hslot : Property.Alike .caseless slot (slot.rename id) :=
      property_alike_rename (fun _ => rfl) fun _ _ => rfl
    rw [Property.rename_id] at hslot
    have hdefine : ∀ s t, (upToCase A).Edits s t .caseless (Movie.define o name slot)
        (Movie.define o name' slot) fun _ _ _ => True := by
      intro s t
      refine edits_respelled fun h => ?_
      rw [h.normalize hname]
      exact .storeAs rfl _ hname hslot
    exact .bind (.edit hdefine) fun _ _ => .pure (.reply .nothing)
  | delete =>
    have hdelete : (upToCase A).Updates .caseless (m.delete o name) (m.delete o name')
        fun _ b b' => b = b' := by
      refine updates_respelled fun h => ?_
      rw [h.normalize hname]
      exact hm.deleteKey rfl _
    refine .bind (.lift hdelete) fun _ hb => ?_
    rw [hb]
    exact .pure (.reply .flag)
  | deleteOwn =>
    refine .bind (.lift (deleteOwn_updates rfl fun _ _ hs => hs.2.1.normalize hname)) fun _ hb => ?_
    rw [hb]
    exact .pure (.reply .flag)

theorem NamedCall.perform_runs {call call' : NamedCall} (hcall : call.SameButCase call') :
    (upToCase A).Runs .caseless (call.perform m) (call'.perform m) NamedReply.Alike := by
  cases hcall with
  | slot hname => exact SlotCall.perform_runs hm _ _ hname
  | flags hnames => exact setFlags_runs _ _ _ hnames
  | @other call =>
    have hruns : (upToCase A).Runs .caseless (call.perform m) (call.perform m) Reply.Alike := by
      -- The other two look at all slots, which are in use alike in both movies.
      by_cases hlocal : call.isLocal
      · exact Call.perform_runs hm hlocal fun _ _ => rfl
      · cases call with
        | createActions => exact createActions_runs _ _ _ _
        | collect => exact collect_runs _
        | _ => exact (hlocal rfl).elim
    exact .bind hruns fun _ hreply => .pure (.reply hreply)

/-- Calls that are the same but for the case of their names have the same answers, up to
spellings, and keep the movies respelled. -/
theorem namedAnswers_folded_eq {calls calls' : List NamedCall}
    (hcalls : List.Forall₂ NamedCall.SameButCase calls calls') {s t : State τ}
    (hs : (upToCase A).state .caseless s t) :
    (namedAnswers m calls s).1.map (Except.map NamedReply.folded) =
        (namedAnswers m calls' t).1.map (Except.map NamedReply.folded) ∧
      (upToCase A).state .caseless (namedAnswers m calls s).2 (namedAnswers m calls' t).2 := by
  induction hcalls generalizing s t with
  | nil => exact ⟨rfl, hs⟩
  | @cons call call' calls calls' hcall _ ih =>
    obtain ⟨r, _, hnext, hanswer⟩ := NamedCall.perform_runs hm hcall s t hs
    obtain rfl := hnext.1
    obtain ⟨hlater, hend⟩ := ih hnext
    exact ⟨congrArg₂ List.cons (answer_folded_eq hanswer) hlater, hend⟩

end Caseless

/-- The answers are the same but for the case of the spellings in them, and so are the movies. -/
structure SameButSpellings (A : Agreement τ)
    (first second : List (Except Error NamedReply) × State τ) : Prop where
  answers : first.1.map (Except.map NamedReply.folded) =
    second.1.map (Except.map NamedReply.folded)
  movies : first.2.movie.folded = second.2.movie.folded
  embedders : A.holds .caseless first.2.embedder second.2.embedder

/-- In any movie up to version 6, with an embedder whose callbacks do not look at spellings, calls
that are the same but for the case of their names part in nothing but spellings. -/
theorem nameCase_unobservable {movie : Movie} (hversion : movie.settings.version ≤ 6)
    {host : Host τ} {A : Agreement τ} (hhost : host.IgnoresCase A) (depth : Nat) (e e' : τ)
    (he : A.holds .caseless e e') {calls calls' : List NamedCall}
    (hcalls : List.Forall₂ NamedCall.SameButCase calls calls') :
    SameButSpellings A (namedAnswers (host.machine depth) calls ⟨movie, e⟩)
      (namedAnswers (host.machine depth) calls' ⟨movie, e'⟩) := by
  have hcaseless : movie.settings.caseSensitive = false :=
    decide_eq_false (Nat.not_lt.mpr hversion)
  have hm := Correspondence.respects_machine (C := upToCase A) hhost depth
  have hstart : (upToCase A).state .caseless ⟨movie, e⟩ ⟨movie, e'⟩ :=
    ⟨rfl, .refl hcaseless, he⟩
  obtain ⟨hanswers, _, hlast, hembedders⟩ := namedAnswers_folded_eq hm hcalls hstart
  exact ⟨hanswers, hlast.folded_eq, hembedders⟩

@[irreducible] def oldMovie : Movie := Movie.new { version := 6 }

/-- The first object after those of a new movie. -/
def firstObject : ObjectId := ⟨oldMovie.heap.slots.size⟩

/-- Adds two slots to a new object, hides one and drops it, with a collection in between. -/
def addAndHide (one two : String) : List NamedCall :=
  [.other (.data .createObject),
    .slot firstObject one (.write (.number 1)),
    .slot firstObject two (.define (.data .null {})),
    .other (.collect [firstObject]),
    .other (.data (.ownKeys firstObject)),
    .flags firstObject [one] { dontEnum := true } {},
    .slot firstObject one .find,
    .slot firstObject one .delete]

theorem nameCase_unobservable_addAndHide :
    oldMovie.settings.version ≤ 6 ∧
      SameButSpellings .stateless
        (namedAnswers ((Host.bare Unit).machine 1) (addAndHide "Alpha" "BETA") ⟨oldMovie, ()⟩)
        (namedAnswers ((Host.bare Unit).machine 1) (addAndHide "alphA" "beta") ⟨oldMovie, ()⟩) := by
  have hhost : (Host.bare Unit).IgnoresCase Agreement.stateless :=
    fun _ => Correspondence.serves_refuse
  have hone : Text.lower "Alpha" = Text.lower "alphA" := by decide +kernel
  have htwo : Text.lower "BETA" = Text.lower "beta" := by decide +kernel
  have hcalls : List.Forall₂ NamedCall.SameButCase (addAndHide "Alpha" "BETA")
      (addAndHide "alphA" "beta") :=
    .cons .other (.cons (.slot hone) (.cons (.slot htwo) (.cons .other (.cons .other
      (.cons (.flags (.cons hone .nil)) (.cons (.slot hone) (.cons (.slot hone) .nil)))))))
  have hversion : oldMovie.settings.version ≤ 6 := by decide +kernel
  exact ⟨hversion, nameCase_unobservable hversion hhost 1 () () trivial hcalls⟩

/-- Enumeration shows the spellings, here after both slots have been added. -/
example :
    (namedAnswers ((Host.bare Unit).machine 1) ((addAndHide "Alpha" "BETA").take 3)
        ⟨oldMovie, ()⟩).2.movie.ownKeys firstObject = ["Alpha", "BETA"] ∧
      (namedAnswers ((Host.bare Unit).machine 1) ((addAndHide "alphA" "beta").take 3)
        ⟨oldMovie, ()⟩).2.movie.ownKeys firstObject = ["alphA", "beta"] := by
  decide +kernel

end Session

end ActionScript
