import ActionScript.Movie.NameCache
import ActionScript.Proofs.ScriptKey

/-! # Remembered keys are right

Whatever names and values were asked for before, a key that is found in the table is the one that
would be computed (`NameCache.keyOfName_eq`, `NameCache.mapM_keyOfName_empty`), so keys with a table
are those that a machine finds without one (`Machine.toKey_eq_keyOfValue`). -/

namespace ActionScript

namespace NameCache

variable {s : Settings} {cache : NameCache} {name key : String}

/-- The table holds lower case for names, and nothing where case counts. -/
structure Coherent (s : Settings) (cache : NameCache) : Prop where
  eq_lower : ∀ {name key : String}, cache[name]? = some key → key = Text.lower name
  not_mem : s.caseSensitive → ∀ name, name ∉ cache

theorem coherent_empty (s : Settings) : Coherent s ∅ where
  eq_lower := by simp
  not_mem := by simp

theorem keyOfName_of_caseSensitive (hcase : s.caseSensitive) (name : String) :
    (keyOfName s name).run cache = (name, cache) := by
  rw [keyOfName, if_pos hcase]
  rfl

theorem keyOfName_of_some (hcase : s.caseSensitive = false) (hkey : cache[name]? = some key) :
    (keyOfName s name).run cache = (key, cache) := by
  rw [keyOfName, if_neg (by rw [hcase]; exact Bool.false_ne_true), StateT.run_bind, StateT.run_get,
    pure_bind]
  dsimp only
  rw [hkey]
  rfl

theorem keyOfName_of_none (hcase : s.caseSensitive = false) (hkey : cache[name]? = none) :
    (keyOfName s name).run cache = (Text.lower name, cache.insert name (Text.lower name)) := by
  rw [keyOfName, if_neg (by rw [hcase]; exact Bool.false_ne_true), StateT.run_bind, StateT.run_get,
    pure_bind]
  dsimp only
  rw [hkey]
  rfl

/-- The answer to a name is its key, and the table stays right. -/
theorem keyOfName_eq (hcache : Coherent s cache) (name : String) :
    ∃ after, (keyOfName s name).run cache = (s.normalize name, after) ∧ Coherent s after := by
  cases hcase : s.caseSensitive with
  | true =>
    rw [keyOfName_of_caseSensitive hcase, Settings.normalize, if_pos hcase]
    exact ⟨cache, rfl, hcache⟩
  | false =>
    rw [Settings.normalize, if_neg (by rw [hcase]; exact Bool.false_ne_true)]
    cases hkey : cache[name]? with
    | some key =>
      rw [keyOfName_of_some hcase hkey, hcache.eq_lower hkey]
      exact ⟨cache, rfl, hcache⟩
    | none =>
      rw [keyOfName_of_none hcase hkey]
      refine ⟨_, rfl, fun {name' key'} hkey' => ?_, fun h => ?_⟩
      · rw [Std.HashMap.getElem?_insert] at hkey'
        split at hkey'
        · rename_i heq
          cases hkey'
          rw [eq_of_beq heq]
        · exact hcache.eq_lower hkey'
      · rw [hcase] at h
        cases h

/-- The answers to names that are asked for one after the other are their keys, by induction on the
names with the table that each of them leaves. -/
theorem mapM_keyOfName_eq (hcache : Coherent s cache) (names : List String) :
    ∃ after, (names.mapM (keyOfName s)).run cache = (names.map s.normalize, after) ∧
      Coherent s after := by
  induction names generalizing cache with
  | nil => exact ⟨cache, rfl, hcache⟩
  | cons name names ih =>
    obtain ⟨next, hname, hnext⟩ := keyOfName_eq hcache name
    obtain ⟨last, hnames, hlast⟩ := ih hnext
    refine ⟨last, ?_, hlast⟩
    rw [List.mapM_cons, StateT.run_bind, hname]
    show ((names.mapM (keyOfName s) >>= fun keys => pure (s.normalize name :: keys)).run next) = _
    rw [StateT.run_bind, hnames]
    rfl

/-- From the empty table on, every name is answered with its key, however often and in whatever
order the names are asked for. -/
theorem mapM_keyOfName_empty (s : Settings) (names : List String) :
    ((names.mapM (keyOfName s)).run ∅).1 = names.map s.normalize := by
  obtain ⟨after, hnames, -⟩ := mapM_keyOfName_eq (coherent_empty s) names
  rw [hnames]

end NameCache

namespace Machine

variable {σ : Type} {machine : Machine σ} {s : State σ} {v : Value} {text : String}

/-- Keys with a table are those that a machine finds without one. The table does not change for a
number. -/
theorem toKey_eq_keyOfValue {cache : NameCache} (hcache : cache.Coherent s.movie.settings)
    (htext : machine.toText v s = (.ok text, s)) :
    ∃ key after, (NameCache.keyOfValue s.movie.settings v text).run cache = (key, after) ∧
      after.Coherent s.movie.settings ∧ ((∃ x, v = .number x) → after = cache) ∧
      machine.toKey v s = (.ok key, s) := by
  cases v with
  | number x => exact ⟨x.text, cache, rfl, hcache, fun _ => rfl, rfl⟩
  | _ =>
    obtain ⟨after, hname, hafter⟩ := NameCache.keyOfName_eq hcache text
    exact ⟨_, after, hname, hafter, nofun, toKey_of_toText htext nofun⟩

end Machine

end ActionScript
