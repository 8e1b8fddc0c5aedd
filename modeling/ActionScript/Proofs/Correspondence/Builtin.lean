import ActionScript.Host
import ActionScript.Proofs.Correspondence.Machine

/-! # Built-in routines side by side

Every built-in routine respects every correspondence, and with it every machine of an embedder
whose services do (`respects_machine`). -/

namespace ActionScript.Correspondence

variable {σ : Type} [Journal σ] {C : Correspondence σ} {m : Machine σ} {r : Matching}

theorem argument_alike {args args' : List Value} (h : List.Forall₂ (Value.Alike r) args args')
    (i : Nat) : Value.Alike r (argument args i) (argument args' i) := by
  induction h generalizing i with
  | nil => exact .undefined
  | cons hv _ ih =>
    cases i with
    | zero => exact hv
    | succ i => exact ih i

namespace Respects

variable (hm : C.Respects m) {this this' : Value} (hthis : Value.Alike r this this')
  {args args' : List Value} (hargs : List.Forall₂ (Value.Alike r) args args')

section Object

include hm hthis hargs

theorem receiverAndName :
    C.Runs r (Builtin.receiverAndName m this args) (Builtin.receiverAndName m this' args')
      fun r' x x' => r'.handle x.1 x'.1 ∧ x.2 = x'.2 := by
  refine .bind (toObject hthis) fun hle ho => ?_
  refine .bind (hm.toText ((argument_alike hargs 0).mono hle)) fun hle' hname => ?_
  exact .pure ⟨hle'.1 ho, hname⟩

theorem addAccessor :
    C.Runs r (Builtin.addAccessor m this args) (Builtin.addAccessor m this' args')
      Value.Alike := by
  refine .bind (hm.receiverAndName hthis hargs) fun {_ x x'} hle hx => ?_
  obtain ⟨ho, hname⟩ := hx
  have hgetter := (argument_alike hargs 1).mono hle
  have hsetter := (argument_alike hargs 2).mono hle
  refine .movie fun h => ?_
  dsimp only
  rw [hname, h.isCallable hgetter, h.isCallable hsetter, hsetter.isNull]
  split
  · exact .pure .bool
  · refine .bind (.edit fun _ _ => .define ho _ (.accessor hgetter.object? hsetter.object? _))
      fun _ _ => ?_
    exact .pure .bool

theorem addWatcher :
    C.Runs r (Builtin.addWatcher m this args) (Builtin.addWatcher m this' args')
      Value.Alike := by
  refine .bind (hm.receiverAndName hthis hargs) fun {_ x x'} hle hx => ?_
  obtain ⟨o, name⟩ := x
  obtain ⟨o', name'⟩ := x'
  obtain ⟨ho, rfl⟩ : _ ∧ name = name' := hx
  have huser := (argument_alike hargs 2).mono hle
  dsimp only
  generalize argument args 2 = user at huser
  generalize argument args' 2 = user' at huser
  have hcallback := (argument_alike hargs 1).mono hle
  generalize argument args 1 = callback at hcallback
  generalize argument args' 1 = callback' at hcallback
  cases hcallback with
  | object hc =>
    refine .movie fun h => ?_
    rw [h.isCallable (.object hc)]
    split
    · refine .bind (.edit fun _ _ => .setWatcher ho name (.some ⟨rfl, hc, huser⟩)) fun _ hb => ?_
      rw [hb]
      exact .pure .bool
    · exact .pure .bool
  | _ => exact .pure .bool

theorem ofObject (routine : Builtin.OfObject) :
    C.Runs r (routine.run m this args) (routine.run m this' args') Value.Alike := by
  have harg := argument_alike hargs 0
  cases routine with
  | convert =>
    rw [Builtin.OfObject.run, Builtin.OfObject.run, harg.isNullish]
    split
    · exact .bind (.edit fun _ _ => .createObject) fun _ ho => .pure (.object ho)
    · exact .bind (toObject harg) fun _ ho => .pure (.object ho)
  | registerClass =>
    refine .bind (hm.toText harg) fun {_ name name'} hle hname => ?_
    have hcls := (argument_alike hargs 1).mono hle
    generalize argument args 1 = cls at hcls
    generalize argument args' 1 = cls' at hcls
    cases hcls with
    | object ho =>
      rw [hname]
      refine .bind (.edit fun _ _ => .registerClass name' ho) fun _ hb => ?_
      rw [hb]
      exact .pure .bool
    | _ => exact .pure .bool
  | text =>
    refine .movie fun h => ?_
    rw [h.isCallable hthis]
    exact .pure .string
  | self => exact .pure hthis
  | hasOwnProperty =>
    refine .bind (hm.receiverAndName hthis hargs) fun hle hx => ?_
    refine .movie fun h => ?_
    rw [hx.2, h.hasOwn hx.1]
    exact .pure .bool
  | isPropertyEnumerable =>
    refine .bind (hm.receiverAndName hthis hargs) fun {_ x x'} hle hx => ?_
    refine .movie fun {movie movie'} h => ?_
    have hshown : (movie.own? x.1 x.2).any Property.isEnumerable =
        (movie'.own? x'.1 x'.2).any Property.isEnumerable := by
      rw [hx.2]
      rcases optionRel_cases (h.named hx.1 x'.2) with ⟨p, p', hp, hp', halike⟩ | ⟨hp, hp'⟩
      · rw [hp, hp', Option.any_some, Option.any_some, halike.isEnumerable]
      · rw [hp, hp', Option.any_none]
    rw [hshown]
    exact .pure .bool
  | isPrototypeOf =>
    refine .bind (toObject hthis) fun {_ o o'} hle ho => ?_
    refine .movie fun {movie movie'} h => ?_
    have habove : (argument args 0).object?.any (movie.heap.isPrototypeOf o) =
        (argument args' 0).object?.any (movie'.heap.isPrototypeOf o') := by
      rcases optionRel_cases (harg.mono hle).object? with ⟨p, p', hp, hp', hop⟩ | ⟨hp, hp'⟩
      · rw [hp, hp', Option.any_some, Option.any_some, h.isPrototypeOf hop ho]
      · rw [hp, hp', Option.any_none, Option.any_none]
    rw [habove]
    exact .pure .bool
  | addProperty => exact hm.addAccessor hthis hargs
  | watch => exact hm.addWatcher hthis hargs
  | unwatch =>
    refine .bind (hm.receiverAndName hthis hargs) fun {_ x x'} hle hx => ?_
    dsimp only
    rw [hx.2]
    refine .bind (.edit fun _ _ => .setWatcher hx.1 _ .none) fun _ hb => ?_
    rw [hb]
    exact .pure .bool

theorem ofFunction (routine : Builtin.OfFunction) :
    C.Runs r (routine.run m this args) (routine.run m this' args') Value.Alike := by
  have hreceiver := argument_alike hargs 0
  cases routine with
  | create => exact .bind (.edit fun _ _ => .createConstructor _) fun _ ho => .pure (.object ho)
  | call => exact hm.callValue hthis hreceiver (List.forall₂_drop _ hargs)
  | apply =>
    have happly : ∀ {r' vs vs'}, r ≤ r' → List.Forall₂ (Value.Alike r') vs vs' →
        C.Runs r' (m.callValue this (argument args 0) vs)
          (m.callValue this' (argument args' 0) vs') Value.Alike :=
      fun hle hvs => hm.callValue (hthis.mono hle) (hreceiver.mono hle) hvs
    have hlist := argument_alike hargs 1
    rw [Builtin.OfFunction.run, Builtin.OfFunction.run]
    dsimp only
    generalize argument args 1 = list at hlist
    generalize argument args' 1 = list' at hlist
    cases hlist with
    | object ho => exact .bind (hm.elements ho) fun hle hvs => happly hle hvs
    | _ => exact happly (le_refl r) .nil

theorem constructError :
    C.Runs r (Builtin.constructError m this args) (Builtin.constructError m this' args')
      Value.Alike := by
  refine .movie fun h => ?_
  refine .bind (hm.instancePrototype hthis h.errorPrototype) fun hle hp => ?_
  refine .bind (.edit fun _ _ => .create (.some hp) _) fun hle' ho => ?_
  have hmessage := (argument_alike hargs 0).mono (hle.trans hle')
  dsimp only
  rw [hmessage.isUndefined]
  split
  · exact .bind (hm.write ho hmessage _) fun hle'' _ => .pure (.object (hle''.1 ho))
  · exact .pure (.object ho)

theorem ofError (routine : Builtin.OfError) :
    C.Runs r (routine.run m this args) (routine.run m this' args') Value.Alike := by
  cases routine with
  | call =>
    refine .movie fun h => ?_
    exact hm.constructError (.object h.error) hargs
  | construct => exact hm.constructError hthis hargs
  | text =>
    refine .bind (toObject hthis) fun _ ho => ?_
    refine .bind (hm.read ho _) fun _ hv => ?_
    refine .bind (hm.toText hv) fun _ htext => ?_
    rw [htext]
    exact .pure .string

end Object

/-! ## Arrays -/

section Array

include hm hthis

theorem receiverAndLength :
    C.Runs r (Builtin.receiverAndLength m this) (Builtin.receiverAndLength m this')
      fun r' x x' => r'.handle x.1 x'.1 ∧ x.2 = x'.2 := by
  refine .bind (toObject hthis) fun _ ho => ?_
  refine .bind (hm.read ho _) fun hle hlength => ?_
  refine .bind (hm.toUInt32 hlength) fun hle' hn => ?_
  exact .pure ⟨hle'.1 (hle.1 ho), hn⟩

omit hthis in
theorem writeFrom {a a' : ObjectId} (ha : r.handle a a') (i : Nat) {vs vs' : List Value}
    (hvs : List.Forall₂ (Value.Alike r) vs vs') :
    C.Runs r (Builtin.writeFrom m a i vs) (Builtin.writeFrom m a' i vs') fun _ _ _ => True := by
  induction vs generalizing r vs' i with
  | nil =>
    cases hvs
    exact .pure trivial
  | cons v vs ih =>
    cases hvs with
    | cons hv hvs =>
      refine .of_alike fun h => ?_
      refine .bind (hm.writeKey ha hv _ (h.spellings _)) fun hle _ => ?_
      exact ih (hle.1 ha) (i + 1) (hvs.imp fun _ _ => Value.Alike.mono hle)

include hargs in
theorem pushAll :
    C.Runs r (Builtin.pushAll m this args) (Builtin.pushAll m this' args') Value.Alike := by
  refine .bind (hm.receiverAndLength hthis) fun {_ x x'} hle hx => ?_
  obtain ⟨a, length⟩ := x
  obtain ⟨a', length'⟩ := x'
  obtain ⟨ha, rfl⟩ : _ ∧ length = length' := hx
  refine .bind (hm.writeFrom ha length (hargs.imp fun _ _ => Value.Alike.mono hle)) fun hle' _ => ?_
  rw [hargs.length_eq]
  exact .bind (hm.write (hle'.1 ha) .number _) fun _ _ => .pure .number

theorem popLast :
    C.Runs r (Builtin.popLast m this) (Builtin.popLast m this') Value.Alike := by
  refine .bind (hm.receiverAndLength hthis) fun {_ x x'} hle hx => ?_
  obtain ⟨a, length⟩ := x
  obtain ⟨a', length'⟩ := x'
  obtain ⟨ha, rfl⟩ : _ ∧ length = length' := hx
  cases length with
  | zero => exact .bind (hm.write ha .number _) fun _ _ => .pure .undefined
  | succ last =>
    refine .bind (hm.readKey ha _) fun hle₁ hv => ?_
    refine .bind (.discard (.lift (hm.deleteKey (hle₁.1 ha) _))) fun hle₂ _ => ?_
    refine .bind (hm.write (hle₂.1 (hle₁.1 ha)) .number _) fun hle₃ _ => ?_
    exact .pure (hv.mono (hle₂.trans hle₃))

omit hthis in
theorem texts {vs vs' : List Value} (hvs : List.Forall₂ (Value.Alike r) vs vs') :
    C.Runs r (vs.mapM m.toText) (vs'.mapM m.toText) fun _ x x' => x = x' := by
  refine .imp (.mapM Value.Alike.mono (fun _ => id) (fun _ _ _ _ hv => hm.toText hv) hvs) ?_
  intro r' texts texts' _ htexts
  rwa [List.forall₂_eq_eq_eq] at htexts

omit hthis in
/-- Joining paired arrays writes the same text, or fails alike. -/
theorem joinElements {a a' : ObjectId} (ha : r.handle a a') (separator : String) :
    C.Runs r (Builtin.joinElements m a separator) (Builtin.joinElements m a' separator)
      Value.Alike := by
  refine .bind (hm.elements ha) fun _ hvs => ?_
  refine .bind (hm.texts hvs) fun _ hparts => ?_
  rw [hparts]
  exact .pure .string

include hargs in
/-- Array methods run alike on paired receivers. -/
theorem ofArray (routine : Builtin.OfArray) :
    C.Runs r (routine.run m this args) (routine.run m this' args') Value.Alike := by
  have hcreate : C.Runs r (do return .object (← Movie.createArray args))
      (do return .object (← Movie.createArray args')) Value.Alike :=
    .bind (.edit fun _ _ => .createArray hargs) fun _ ho => .pure (.object ho)
  cases routine with
  | create =>
    cases hargs with
    | nil => exact hcreate
    | cons hv hrest =>
      cases hrest with
      | cons _ _ => cases hv <;> exact hcreate
      | nil =>
        cases hv with
        | number =>
          refine .bind (.edit fun _ _ => .createArray .nil) fun _ ha => ?_
          refine .bind (.edit fun _ _ => .setLength ha _) fun hle _ => ?_
          exact .pure (.object (hle.1 ha))
        | _ => exact hcreate
  | push => exact hm.pushAll hthis hargs
  | pop => exact hm.popLast hthis
  | join =>
    refine .bind (toObject hthis) fun {r₁ a a'} hle ha => ?_
    have hjoin : ∀ {v v'}, Value.Alike r₁ v v' → C.Runs r₁
        (do let separator ← m.toText v; Builtin.joinElements m a separator)
        (do let separator ← m.toText v'; Builtin.joinElements m a' separator) Value.Alike := by
      intro v v' hv
      refine .bind (hm.toText hv) fun hle' hseparator => ?_
      rw [hseparator]
      exact hm.joinElements (hle'.1 ha) _
    have hseparator := (argument_alike hargs 0).mono hle
    dsimp only
    generalize argument args 0 = v at hseparator
    generalize argument args' 0 = v' at hseparator
    cases hseparator with
    | undefined => exact hm.joinElements ha ","
    | null => exact hjoin .null
    | bool => exact hjoin .bool
    | number => exact hjoin .number
    | string => exact hjoin .string
    | object ho => exact hjoin (.object ho)
  | text => exact .bind (toObject hthis) fun _ ha => hm.joinElements ha ","

end Array

/-! ## Numbers and truth values -/

section Number

include hm hthis

theorem receiverNumber :
    C.Runs r (Builtin.receiverNumber m this) (Builtin.receiverNumber m this')
      fun _ x x' => x = x' := by
  cases hthis with
  | object ho =>
    refine .movie fun h => ?_
    rw [h.kind ho]
    split <;> exact .pure rfl
  | undefined => exact hm.toNumber .undefined
  | null => exact hm.toNumber .null
  | bool => exact hm.toNumber .bool
  | number => exact hm.toNumber .number
  | string => exact hm.toNumber .string

omit hm in
theorem receiverBool {movie movie' : Movie} (h : Movie.Alike r movie movie') :
    Builtin.receiverBool movie this = Builtin.receiverBool movie' this' := by
  rw [Builtin.receiverBool, Builtin.receiverBool, h.kind_object? hthis, hthis.truthy]

theorem boxAs {v v' : Value} (hv : Value.Alike r v v') :
    C.Runs r (Builtin.boxAs m this v) (Builtin.boxAs m this' v') Value.Alike := by
  refine .bind (toObject hv) fun {r₁ o o'} hle ho => ?_
  refine .movie fun {movie movie'} h => ?_
  have hfallback : r₁.handle
      ((movie.heap.prototype? o).getD movie.intrinsics.objectPrototype)
      ((movie'.heap.prototype? o').getD movie'.intrinsics.objectPrototype) := by
    rcases optionRel_cases (h.prototype? ho) with ⟨p, p', hp, hp', hproto⟩ | ⟨hp, hp'⟩
    · rw [hp, hp']
      exact hproto
    · rw [hp, hp']
      exact h.objectPrototype
  refine .bind (hm.instancePrototype (hthis.mono hle) hfallback) fun hle₁ hp => ?_
  refine .bind (.discard (.edit fun _ _ => .setPrototype (hle₁.1 ho) (.some hp))) fun hle₂ _ => ?_
  exact .pure (.object (hle₂.1 (hle₁.1 ho)))

omit hthis

include hargs in
theorem firstNumber :
    C.Runs r (Builtin.firstNumber m args) (Builtin.firstNumber m args') fun _ x x' => x = x' := by
  cases hargs with
  | nil => exact .pure rfl
  | cons hv _ => exact hm.toNumber hv

include hargs hthis in
theorem numberText :
    C.Runs r (Builtin.numberText m this args) (Builtin.numberText m this' args')
      Value.Alike := by
  refine .bind (hm.receiverNumber hthis) fun {r₁ x x'} hle hx => ?_
  have htext : ∀ {v v'}, Value.Alike r₁ v v' → C.Runs r₁
      (do
        let radix ← m.toInt32 v
        return .string (if radix < 0 then x.text else x.textInRadix radix.toNat))
      (do
        let radix ← m.toInt32 v'
        return .string (if radix < 0 then x'.text else x'.textInRadix radix.toNat))
      Value.Alike := by
    intro v v' hv
    refine .bind (hm.toInt32 hv) fun _ hradix => ?_
    rw [hx, hradix]
    exact .pure .string
  have hradix := (argument_alike hargs 0).mono hle
  dsimp only
  generalize argument args 0 = v at hradix
  generalize argument args' 0 = v' at hradix
  cases hradix with
  | undefined =>
    rw [hx]
    exact .pure .string
  | null => exact htext .null
  | bool => exact htext .bool
  | number => exact htext .number
  | string => exact htext .string
  | object ho => exact htext (.object ho)

include hargs hthis in
/-- Number methods run alike: they work on the same number. -/
theorem ofNumber (routine : Builtin.OfNumber) :
    C.Runs r (routine.run m this args) (routine.run m this' args') Value.Alike := by
  cases routine with
  | call =>
    refine .bind (hm.firstNumber hargs) fun _ hx => ?_
    rw [hx]
    exact .pure .number
  | construct =>
    refine .bind (hm.firstNumber hargs) fun hle hx => ?_
    rw [hx]
    exact hm.boxAs (hthis.mono hle) .number
  | text => exact hm.numberText hthis hargs
  | self =>
    refine .bind (hm.receiverNumber hthis) fun _ hx => ?_
    rw [hx]
    exact .pure .number

include hargs hthis in
theorem ofBoolean (routine : Builtin.OfBoolean) :
    C.Runs r (routine.run m this args) (routine.run m this' args') Value.Alike := by
  have htruth := (argument_alike hargs 0).truthy
  cases routine with
  | call =>
    rw [Builtin.OfBoolean.run, Builtin.OfBoolean.run, htruth]
    exact .pure .bool
  | construct =>
    rw [Builtin.OfBoolean.run, Builtin.OfBoolean.run, htruth]
    exact hm.boxAs hthis .bool
  | text =>
    refine .movie fun h => ?_
    rw [receiverBool hthis h]
    exact .pure .string
  | self =>
    refine .movie fun h => ?_
    rw [receiverBool hthis h]
    exact .pure .bool

include hargs in
theorem foldNumbers (f : Number → Number → Number) (acc : Number) :
    C.Runs r (Builtin.foldNumbers m f acc args) (Builtin.foldNumbers m f acc args')
      Value.Alike := by
  induction args generalizing r args' acc with
  | nil =>
    cases hargs
    exact .pure .number
  | cons v args ih =>
    cases hargs with
    | cons hv hargs =>
      refine .bind (hm.toNumber hv) fun {_ x x'} hle hx => ?_
      rw [hx]
      split
      · exact .pure .number
      · exact ih (hargs.imp fun _ _ => Value.Alike.mono hle) (f acc x')

include hargs in
theorem mapNumber (f : Number → Number) :
    C.Runs r (Builtin.mapNumber m f args) (Builtin.mapNumber m f args') Value.Alike := by
  refine .bind (hm.toNumber (argument_alike hargs 0)) fun _ hx => ?_
  rw [hx]
  exact .pure .number

include hargs in
/-- The functions of numbers run alike: their arguments convert to the same numbers. -/
theorem ofMath (routine : Builtin.OfMath) :
    C.Runs r (routine.run m args) (routine.run m args') Value.Alike := by
  cases routine with
  | abs | floor | ceil | sqrt | round => exact hm.mapNumber hargs _
  | max | min => exact hm.foldNumbers hargs _ _
  | pow =>
    refine .bind (hm.toNumber (argument_alike hargs 0)) fun hle hx => ?_
    refine .bind (hm.toNumber ((argument_alike hargs 1).mono hle)) fun _ hy => ?_
    rw [hx, hy]
    exact .pure .number
  | random =>
    refine .bind (.edit fun _ _ => .nextRandom) fun _ hx => ?_
    rw [hx]
    exact .pure .number

end Number

/-! ## Texts -/

section Text

include hm

theorem receiverText (hthis : Value.Alike r this this') :
    C.Runs r (Builtin.receiverText m this) (Builtin.receiverText m this')
      fun _ x x' => x = x' := by
  refine .movie fun h => ?_
  rw [h.kind_object? hthis]
  split
  · exact .pure rfl
  · exact hm.toText hthis

include hargs

theorem firstText :
    C.Runs r (Builtin.firstText m args) (Builtin.firstText m args') fun _ x x' => x = x' := by
  cases hargs with
  | nil => exact .pure rfl
  | cons hv _ => exact hm.toText hv

omit hargs in
theorem position {v v' : Value} (hv : Value.Alike r v v') (bound : Nat) :
    C.Runs r (Builtin.position m v bound) (Builtin.position m v' bound) fun _ n n' => n = n' :=
  .bind (hm.toInteger hv) fun _ hx => .pure (by rw [hx])

include hthis

theorem unitAt :
    C.Runs r (Builtin.unitAt m this args) (Builtin.unitAt m this' args') Value.Alike := by
  refine .bind (hm.receiverText hthis) fun hle htext => ?_
  refine .bind (hm.toInteger ((argument_alike hargs 0).mono hle)) fun _ hindex => ?_
  rw [htext, hindex]
  split
  · exact .pure .string
  · exact .pure .string

theorem findPart :
    C.Runs r (Builtin.findPart m this args) (Builtin.findPart m this' args') Value.Alike := by
  refine .bind (hm.receiverText hthis) fun hle htext => ?_
  refine .bind (hm.toText ((argument_alike hargs 0).mono hle)) fun hle' hpart => ?_
  rw [htext, hpart]
  refine .bind (hm.position ((argument_alike hargs 1).mono (hle.trans hle')) _) fun _ hstart => ?_
  rw [hstart]
  split
  · exact .pure .number
  · exact .pure .number

theorem cutPart :
    C.Runs r (Builtin.cutPart m this args) (Builtin.cutPart m this' args') Value.Alike := by
  refine .bind (hm.receiverText hthis) fun {r₁ text text'} hle htext => ?_
  rw [htext]
  refine .bind (hm.toInteger ((argument_alike hargs 0).mono hle)) fun {r₂ x x'} hle' hx => ?_
  rw [hx]
  have hcut : ∀ {v v'} (units : List UInt16) start, Value.Alike r₂ v v' → C.Runs r₂
      (do
        let count ← Builtin.position m v (units.length - start)
        return .string (Text.ofUnits ((units.drop start).take count)))
      (do
        let count ← Builtin.position m v' (units.length - start)
        return .string (Text.ofUnits ((units.drop start).take count))) Value.Alike := by
    intro v v' units start hv
    refine .bind (hm.position hv _) fun _ hcount => ?_
    rw [hcount]
    exact .pure .string
  have hcount := (argument_alike hargs 1).mono (hle.trans hle')
  dsimp only
  generalize argument args 1 = v at hcount
  generalize argument args' 1 = v' at hcount
  cases hcount with
  | undefined => exact .pure .string
  | null => exact hcut _ _ .null
  | bool => exact hcut _ _ .bool
  | number => exact hcut _ _ .number
  | string => exact hcut _ _ .string
  | object ho => exact hcut _ _ (.object ho)

/-- Text methods run alike: they work on the same text. -/
theorem ofString (routine : Builtin.OfString) :
    C.Runs r (routine.run m this args) (routine.run m this' args') Value.Alike := by
  cases routine with
  | call =>
    refine .bind (hm.firstText hargs) fun _ htext => ?_
    rw [htext]
    exact .pure .string
  | construct =>
    refine .bind (hm.firstText hargs) fun hle htext => ?_
    rw [htext]
    refine .bind (toObject .string) fun hle₁ ho => ?_
    refine .movie fun h => ?_
    refine .bind (hm.instancePrototype (hthis.mono (hle.trans hle₁)) h.stringPrototype)
      fun hle₂ hp => ?_
    refine .bind (.discard (.edit fun _ _ => .setPrototype (hle₂.1 ho) (.some hp))) fun hle₃ _ => ?_
    exact .pure (.object (hle₃.1 (hle₂.1 ho)))
  | self | toUpperCase | toLowerCase =>
    refine .bind (hm.receiverText hthis) fun _ htext => ?_
    rw [htext]
    exact .pure .string
  | charAt => exact hm.unitAt hthis hargs
  | indexOf => exact hm.findPart hthis hargs
  | substr => exact hm.cutPart hthis hargs

/-! ## Dates -/

omit hthis in
/-- The time of a date is computed from the same numbers, by whichever calendar. -/
theorem timeOfArguments (c : Calendar.Almanac) :
    C.Runs r (Builtin.timeOfArguments c m args) (Builtin.timeOfArguments c m args')
      fun _ x x' => x = x' := by
  have hcomponents : ∀ {vs vs'}, List.Forall₂ (Value.Alike r) vs vs' →
      C.Runs r (do return c.ofComponents (← (vs.take 7).mapM m.toNumber))
        (do return c.ofComponents (← (vs'.take 7).mapM m.toNumber))
        fun _ x x' => x = x' := by
    intro vs vs' hvs
    have hmap := Runs.mapM Value.Alike.mono (fun _ => id) (fun _ _ _ _ hv => hm.toNumber hv)
      (List.forall₂_take 7 hvs)
    refine .bind hmap fun _ hnumbers => ?_
    rw [List.forall₂_eq_eq_eq] at hnumbers
    rw [hnumbers]
    exact .pure rfl
  cases hargs with
  | nil => exact .lift hm.services.now
  | cons hv hrest =>
    cases hrest with
    | nil => exact hm.toNumber hv
    | cons hw hrest => exact hcomponents (.cons hv (.cons hw hrest))

omit hm hargs in
theorem receiverTime {movie movie' : Movie} (h : Movie.Alike r movie movie') :
    Builtin.receiverTime movie this = Builtin.receiverTime movie' this' := by
  rw [Builtin.receiverTime, Builtin.receiverTime, h.kind_object? hthis]

/-- Date methods run alike: they work on the same time. -/
theorem ofDate (routine : Builtin.OfDate) :
    C.Runs r (routine.run m this args) (routine.run m this' args') Value.Alike := by
  cases routine with
  | call =>
    refine .bind (.lift hm.services.now) fun _ hnow => ?_
    rw [hnow]
    exact .pure .string
  | construct =>
    refine .bind (hm.timeOfArguments hargs _) fun hle htime => ?_
    rw [htime]
    refine .bind (.edit fun _ _ => .createDate _) fun hle₁ ho => ?_
    refine .movie fun h => ?_
    refine .bind (hm.instancePrototype (hthis.mono (hle.trans hle₁)) h.datePrototype)
      fun hle₂ hp => ?_
    refine .bind (.discard (.edit fun _ _ => .setPrototype (hle₂.1 ho) (.some hp))) fun hle₃ _ => ?_
    exact .pure (.object (hle₃.1 (hle₂.1 ho)))
  | time =>
    refine .movie fun h => ?_
    rw [receiverTime hthis h]
    exact .pure .number
  | text =>
    refine .movie fun h => ?_
    rw [receiverTime hthis h]
    exact .pure .string

end Text

/-! ## All routines -/

section Run

include hm

theorem slotNames {v v' : Value} (hv : Value.Alike r v v') :
    C.Runs r (Builtin.slotNames m v) (Builtin.slotNames m v') fun _ x x' => x = x' := by
  rw [Builtin.slotNames, Builtin.slotNames, hv.isNullish]
  split
  · exact .pure rfl
  · refine .movie fun {movie movie'} h => ?_
    have harray : Option.Rel r.handle (v.object?.filter movie.heap.isArray)
        (v'.object?.filter movie'.heap.isArray) := by
      rcases optionRel_cases hv.object? with ⟨o, o', ho, ho', halike⟩ | ⟨ho, ho'⟩
      · rw [ho, ho', Option.filter_some, Option.filter_some, h.isArray halike]
        split
        · exact .some halike
        · exact .none
      · rw [ho, ho']
        exact .none
    rcases optionRel_cases harray with ⟨a, a', ha, ha', halike⟩ | ⟨ha, ha'⟩
    · rw [ha, ha']
      refine .bind (hm.elements halike) fun _ hvs => ?_
      refine .bind (hm.texts hvs) fun _ hnames => ?_
      rw [hnames]
      exact .pure rfl
    · rw [ha, ha']
      refine .bind (hm.toText hv) fun _ htext => ?_
      rw [htext]
      exact .pure rfl

include hargs

/-- The same flags are changed on the slots of the same names. -/
theorem adjustSlots :
    C.Runs r (Builtin.adjustSlots m args) (Builtin.adjustSlots m args') Value.Alike := by
  have hobject := argument_alike hargs 0
  rw [Builtin.adjustSlots, Builtin.adjustSlots]
  generalize argument args 0 = v at hobject
  generalize argument args' 0 = v' at hobject
  cases hobject with
  | object ho =>
    refine .bind (hm.slotNames (argument_alike hargs 1)) fun hle hnames => ?_
    refine .bind (hm.toInt32 ((argument_alike hargs 2).mono hle)) fun hle₁ hset => ?_
    have hle₁ := hle.trans hle₁
    refine .bind (hm.toInt32 ((argument_alike hargs 3).mono hle₁)) fun hle₂ hclear => ?_
    rw [hnames, hset, hclear]
    refine .bind (.edit fun _ _ => .setFlags ((hle₁.trans hle₂).1 ho) _ _ _) fun _ _ => ?_
    exact .pure .undefined
  | _ => exact .pure .undefined

include hthis

/-- Every builtin routine runs alike on alike receivers and arguments. -/
theorem run (routine : Builtin) :
    C.Runs r (routine.run m this args) (routine.run m this' args') Value.Alike := by
  cases routine with
  | nothing => exact .pure .undefined
  | instantiate =>
    have hnothing : ∀ {r'}, C.Runs r' (pure .undefined) (pure .undefined) Value.Alike :=
      .pure .undefined
    cases hthis with
    | object ho =>
      rw [Builtin.run, Builtin.run]
      exact hm.instantiate ho fun _ _ _ _ _ => hnothing
    | _ => exact hnothing
  | setFlags => exact hm.adjustSlots hargs
  | object routine => exact hm.ofObject hthis hargs routine
  | function routine => exact hm.ofFunction hthis hargs routine
  | error routine => exact hm.ofError hthis hargs routine
  | array routine => exact hm.ofArray hthis hargs routine
  | number routine => exact hm.ofNumber hthis hargs routine
  | boolean routine => exact hm.ofBoolean hthis hargs routine
  | math routine => exact hm.ofMath hargs routine
  | string routine => exact hm.ofString hthis hargs routine
  | date routine => exact hm.ofDate hthis hargs routine

end Run

end Respects

/-! ## Embedders -/

/-- The host that refuses everything serves any course of corresponding movies. -/
theorem serves_refuse : C.Serves Host.refuse where
  function _ _ _ _ _ _ _ := .throw (.refl nofun)
  initializeClass _ _ _ _ := .throw (.refl nofun)
  notify _ _ := .pure trivial
  executeActions _ _ _ _ _ := .throw (.refl nofun)
  executeFunction _ _ _ _ _ _ _ _ _ _ _ _ := .throw (.refl nofun)
  resolveTarget _ _ _ _ := .pure .none
  checkTimeout _ := .throw (.refl nofun)
  now := .pure rfl

/-- The machines of an embedder respect what its services respect. -/
theorem respects_machine {host : Host σ}
    (hhost : ∀ {m}, C.Respects m → C.Serves (host m)) (n : Nat) :
    C.Respects (host.machine n) := by
  induction n with
  | zero =>
    rw [Host.machine]
    exact { services := serves_refuse, builtin := fun _ _ _ _ _ _ _ => .throw (.refl nofun) }
  | succ n ih =>
    rw [Host.machine]
    exact {
      services := hhost ih
      builtin := fun routine _ _ _ _ hthis hargs => ih.run hthis hargs routine }

end ActionScript.Correspondence
