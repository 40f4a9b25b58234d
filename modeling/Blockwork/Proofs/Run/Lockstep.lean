import Mathlib
import Blockwork.Proofs.Run.Functions
import Blockwork.Proofs.Run.Requests

/-!
# Two hosts in lockstep

When two hosts give equal replies to equal requests, no program can tell them apart. The states of
the hosts need not be of one type: a relation between them is enough, if it gives equal replies and
holds afterwards (`Host.Alike`). It makes an invariant of a pair of machines (`Machine.Matches`),
which are otherwise the same, and every construct of actions keeps this (`lockstep_congruence`).

## Main result

* `Host.Alike.run`: a program runs alike on hosts that are alike.
-/

namespace Blockwork.Run

open Script Blockwork.Run.Action

variable {σ τ α β : Type} {H : σ → τ → Prop}

/-- **Hosts that cannot be told apart.** In states that are related they have the same canvas and
give the same replies, and they go on to states that are related. -/
structure Host.Alike (H : σ → τ → Prop) (host : Host σ) (host' : Host τ) : Prop where
  canvas {s : σ} {t : τ} : H s t → host.canvas s = host'.canvas t
  reply {s : σ} {t : τ} (call : HostCall) : H s t →
    (host.serve call s).1 = (host'.serve call t).1
  next {s : σ} {t : τ} (call : HostCall) : H s t →
    H (host.serve call s).2 (host'.serve call t).2

/-- Two machines that differ in the states of their hosts only, and these are related. -/
structure Machine.Matches (H : σ → τ → Prop) (m : Machine σ) (m' : Machine τ) : Prop where
  env : m.env = m'.env
  diagnostics : m.diagnostics = m'.diagnostics
  drawn : m.drawn = m'.drawn
  host : H m.host m'.host

/-- From these two machines, the actions end alike and leave machines that match. -/
def EndAlike (H : σ → τ → Prop) (x : Action σ α) (y : Action τ α) (m : Machine σ) (m' : Machine τ) :
    Prop :=
  ∃ r n n', outcome x m = (r, n) ∧ outcome y m' = (r, n') ∧ n.Matches H n'

/-- The actions end alike from all machines that match. -/
def Lockstep (H : σ → τ → Prop) (x : Action σ α) (y : Action τ α) : Prop :=
  ∀ m m', m.Matches H m' → EndAlike H x y m m'

/-- The same change of the variables. -/
theorem Machine.Matches.withEnv {m : Machine σ} {m' : Machine τ} (h : m.Matches H m')
    (env : Environment) : Machine.Matches H { m with env } { m' with env } :=
  ⟨rfl, h.diagnostics, h.drawn, h.host⟩

/-- All but the state of the host is that of the other machine. -/
theorem Machine.Matches.eq_with {m : Machine σ} {m' : Machine τ} (h : m.Matches H m') :
    m' = ⟨m.env, m'.host, m.diagnostics, m.drawn⟩ := by
  rw [h.env, h.diagnostics, h.drawn]

/-- The same request, after which the hosts are related again. -/
theorem Machine.Matches.asked {m : Machine σ} {m' : Machine τ} (h : m.Matches H m')
    (call : HostCall) (span : Span) (source : Nat) {s : σ} {t : τ} (hst : H s t) :
    (m.asked call span source s).Matches H (m'.asked call span source t) := by
  obtain ⟨henv, hdiagnostics, hdrawn, -⟩ := h
  cases call with
  | warn text =>
    have hpushed := congrArg (Array.push · ⟨.custom text, some span, source, true⟩) hdiagnostics
    exact ⟨henv, hpushed, hdrawn, hst⟩
  | draw sprite => exact ⟨henv, hdiagnostics, congrArg (· + 1) hdrawn, hst⟩
  | _ => exact ⟨henv, hdiagnostics, hdrawn, hst⟩

/-! ### Constructs of actions -/

section EndAlike

variable {x : Action σ α} {y : Action τ α} {m : Machine σ} {m' : Machine τ}

/-- What follows starts where the first action has ended. -/
theorem EndAlike.bind {f : α → Action σ β} {g : α → Action τ β} (hx : EndAlike H x y m m')
    (hf : ∀ a n n', outcome x m = (.ok a, n) → n.Matches H n' → EndAlike H (f a) (g a) n n') :
    EndAlike H (x >>= f) (y >>= g) m m' := by
  obtain ⟨d | a, n, n', hxm, hym, hn⟩ := hx
  -- a fault of the first action is the fault of both
  · exact ⟨.error d, n, n', outcome_bind_error hxm, outcome_bind_error hym, hn⟩
  · obtain ⟨r, t, t', ht, ht', hmatches⟩ := hf a n n' hxm hn
    exact ⟨r, t, t', (outcome_bind_ok hxm).trans ht, (outcome_bind_ok hym).trans ht', hmatches⟩

theorem EndAlike.locate (hx : EndAlike H x y m m') (span : Span) (source : Nat) :
    EndAlike H (locate span source x) (locate span source y) m m' := by
  obtain ⟨r, n, n', hxm, hym, hn⟩ := hx
  unfold EndAlike
  rw [outcome_locate, outcome_locate, hxm, hym]
  cases r with
  | error d => exact ⟨.error _, n, n', rfl, rfl, hn⟩
  | ok a => exact ⟨.ok a, n, n', rfl, rfl, hn⟩

theorem EndAlike.inScope (henv : m.env = m'.env)
    (hx : EndAlike H x y { m with env := m.env.push } { m' with env := m.env.push }) :
    EndAlike H (inScope x) (inScope y) m m' := by
  obtain ⟨r, n, n', hxm, hym, hn⟩ := hx
  unfold EndAlike
  -- the same scope is left in both, since the variables are still the same
  rw [outcome_inScope, outcome_inScope, ← henv, hxm, hym, ← hn.env]
  exact ⟨r, _, _, rfl, rfl, hn.withEnv n.env.pop⟩

end EndAlike

theorem Lockstep.locate {x : Action σ α} {y : Action τ α} (hx : Lockstep H x y) (span : Span)
    (source : Nat) : Lockstep H (locate span source x) (locate span source y) :=
  fun m m' h => (hx m m' h).locate span source

theorem lockstep_readVariable (name : String) :
    Lockstep H (readVariable name : Action σ Value) (readVariable name) := by
  intro m m' h
  unfold EndAlike readVariable
  rw [outcome_bind_ok (outcome_get m), outcome_bind_ok (outcome_get m'), h.env]
  cases m'.env.get? name with
  | none => exact ⟨_, m, m', rfl, rfl, h⟩
  | some value => exact ⟨_, m, m', rfl, rfl, h⟩

theorem lockstep_assignVariable (name : String) (value : Value) :
    Lockstep H (assignVariable name value : Action σ Unit) (assignVariable name value) := by
  intro m m' h
  unfold EndAlike assignVariable
  rw [outcome_bind_ok (outcome_get m), outcome_bind_ok (outcome_get m'), h.env]
  cases m'.env.assign? name value with
  | none => exact ⟨_, m, m', rfl, rfl, h⟩
  | some env => exact ⟨_, _, _, rfl, rfl, h.withEnv env⟩

/-- **Lockstep is kept by all constructs of actions.** -/
theorem lockstep_congruence : Congruence (fun {α} => @Lockstep σ τ α H) where
  pure _ m m' h := ⟨_, m, m', rfl, rfl, h⟩
  fail _ m m' h := ⟨_, m, m', rfl, rfl, h⟩
  bind hx hf m m' h := (hx m m' h).bind fun a n n' _ hn => hf a n n' hn
  locate span source hx := hx.locate span source
  inScope hx m m' h := .inScope h.env (hx _ _ (h.withEnv m.env.push))
  readVariable := lockstep_readVariable
  assignVariable := lockstep_assignVariable
  declare name value m m' h := by
    unfold EndAlike
    rw [outcome_modifyEnv, outcome_modifyEnv, h.env]
    exact ⟨_, _, _, rfl, rfl, h.withEnv _⟩

/-! ### Programs -/

namespace Host.Alike

variable {host : Host σ} {host' : Host τ} {assets : AssetStore} {seed : UInt64} {source : Nat}

/-- A call makes the same request to both hosts, and gets the same reply. -/
theorem callFunction (h : Host.Alike H host host') (function : String) (arguments : List Value)
    (span : Span) :
    Lockstep H (Run.callFunction ⟨⟨host, assets, seed⟩, source⟩ function arguments span)
      (Run.callFunction ⟨⟨host', assets, seed⟩, source⟩ function arguments span) := by
  intro m m' hm
  unfold EndAlike
  rw [outcome_callFunction, outcome_callFunction, h.canvas hm.host, hm.drawn]
  cases requestOf assets seed (host'.canvas m'.host) m'.drawn function arguments with
  | none => exact ⟨_, m, m', rfl, rfl, hm⟩
  | some call =>
    dsimp only
    rw [h.reply call hm.host]
    exact ⟨_, _, _, rfl, rfl, hm.asked call span source (h.next call hm.host)⟩

/-- **A program runs alike on hosts that are alike**: with the same result, the same variables, the
same warnings, and states of the hosts that are related again. -/
theorem run (h : Host.Alike H host host') (assets : AssetStore) (seed : UInt64) (turns : Nat)
    (p : Program) {m : Machine σ} {m' : Machine τ} (hm : m.Matches H m') :
    ∃ r n n', Run.run ⟨host, assets, seed⟩ turns p m = (r, n) ∧
      Run.run ⟨host', assets, seed⟩ turns p m' = (r, n') ∧ n.Matches H n' := by
  have htop : Lockstep H (executeTop ⟨⟨host, assets, seed⟩, p.source⟩ turns p.statements)
      (executeTop ⟨⟨host', assets, seed⟩, p.source⟩ turns p.statements) := by
    rw [← executeTopWith_eq, ← executeTopWith_eq]
    refine lockstep_congruence.executeTop (C := fun _ => True) (fun f arguments span _ => ?_)
      fun _ _ => trivial
    exact (h.callFunction f arguments span).locate span p.source
  exact htop m m' hm

end Host.Alike

end Blockwork.Run
