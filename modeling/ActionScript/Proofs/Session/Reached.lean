import ActionScript.Proofs.Session.Invariant

/-! # Movies that sessions lead to

Whatever a client does, with callbacks that make calls of their own: if it never names a stale
handle and collects outside callbacks only, every stored handle is live and every prototype chain
ends (`sound_of_careful`). -/

namespace ActionScript

namespace Session

variable {σ α : Type}

namespace Client

/-- A careful client never sees a stale handle in its movie or a prototype chain without an end,
neither between its calls nor within them. -/
theorem sound_of_careful (c : Client σ) (depth : Nat) (settings : Settings) (own : σ)
    (main : Program σ α) (hcareful : (c.play depth settings own main).embedder.careful = true) :
    (c.play depth settings own main).movie.Sound ∧
      ∀ m ∈ (c.play depth settings own main).embedder.past, m.Sound := by
  obtain ⟨k, hfits⟩ := c.fits_play depth settings own main
  have hpast := hfits.history.sound hcareful
  obtain ⟨older, hlatest⟩ := hfits.history.latest
  refine ⟨hpast _ ?_, hpast⟩
  rw [hlatest]
  exact List.mem_cons_self

/-- A client whose functions create an object below `this`, and which does nothing else. -/
def begetting : Client Unit where
  function _ this _ := .ask (.data (.createWithPrototype this.object?)) fun
    | .ok (.object o) => .done (.ok (.object o))
    | _ => .done (.ok .undefined)
  initializeClass _ _ := .done (.ok ())
  notify _ _ := .done ()
  executeActions _ _ _ := .done (.ok .undefined)
  executeFunction _ _ _ _ _ _ := .done (.ok .undefined)
  resolveTarget _ _ := .done none
  checkTimeout _ := .done (.ok ())
  now := .done .nan

/-- Calls a function on itself, pins what it gives back, and collects. -/
def begetAndCollect : Program Unit Unit :=
  .ask (.createNative "beget" (.host ⟨0⟩) none) fun
    | .ok (.object f) => .ask (.call (.object f) (.object f) []) fun
      | .ok (.value (.object o)) => .ask (.pin o) fun _ => .ask (.collect [f]) fun _ => .done ()
      | _ => .done ()
    | _ => .done ()

theorem sound_begetAndCollect :
    (begetting.play 1 {} () begetAndCollect).embedder.careful = true ∧
      (begetting.play 1 {} () begetAndCollect).movie.Sound := by
  have hcareful : (begetting.play 1 {} () begetAndCollect).embedder.careful = true := by
    decide +kernel
  exact ⟨hcareful, (sound_of_careful begetting 1 {} () begetAndCollect hcareful).1⟩

end Client

end Session

end ActionScript
