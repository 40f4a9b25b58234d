import Mathlib
import Blockwork.Proofs.Run.Lockstep

/-!
# Traces of runs

A trace has a *moment* for each request of a run: the request, the place of the call that made it,
and what the variables and the warnings were then. A host can keep a record of what it is asked, but
it sees neither places nor variables. So the trace is kept by the functions (`callNoted`), which see
all of these, and it stands beside the state of the host.

## Main results

* `run_eq_traced`: but for its trace, a run with a trace is the run.
* `host_traced`: the host is left in the state after the requests of the trace, and these come from
  calls of the program.
-/

namespace Blockwork.Run

open Script Blockwork.Run.Action

variable {σ α β : Type}

/-! ### Moments -/

/-- A request, the place of the call that makes it, and the variables and warnings at the time. -/
structure Moment where
  call : HostCall
  span : Span
  env : Environment
  diagnostics : Array Diagnostic
deriving DecidableEq

/-- The functions of a host, with a note of the moments at which they ask it. -/
def callNoted (setting : Setting σ) : Functions (σ × List Moment) :=
  fun function arguments span => do
    let m ← get
    let host := setting.host.noting fun call => Moment.mk call span m.env m.diagnostics
    callFunction ⟨⟨host, setting.assets, setting.seed⟩, setting.source⟩ function arguments span

/-- A run of a program from a machine, with its trace beside the state of the host. -/
def traced (world : World σ) (turns : Nat) (p : Program) (m : Machine σ) :
    Except Diagnostic Unit × Machine (σ × List Moment) :=
  outcome (executeTopWith (callNoted ⟨world, p.source⟩) p.source turns p.statements)
    ⟨m.env, (m.host, []), m.diagnostics, m.drawn⟩

/-- The moments of a run, in their order. -/
def trace (world : World σ) (turns : Nat) (p : Program) (m : Machine σ) : List Moment :=
  (traced world turns p m).2.host.2

/-- A call makes the request that it always makes, and notes it. -/
theorem outcome_callNoted (setting : Setting σ) (function : String) (arguments : List Value)
    (span : Span) (m : Machine (σ × List Moment)) :
    outcome (callNoted setting function arguments span) m =
      match requestOf setting.assets setting.seed (setting.host.canvas m.host.1) m.drawn function
          arguments with
      | none => (.error (.ofCause (.undefinedFunction function)), m)
      | some call =>
        ((setting.host.serve call m.host.1).1.value,
          m.asked call span setting.source
            ((setting.host.serve call m.host.1).2,
              m.host.2 ++ [⟨call, span, m.env, m.diagnostics⟩])) := by
  unfold callNoted
  rw [outcome_bind_ok (outcome_get m), outcome_callFunction]
  change (match requestOf setting.assets setting.seed (setting.host.canvas m.host.1) m.drawn
    function arguments with | none => _ | some call => _) = _
  cases requestOf setting.assets setting.seed (setting.host.canvas m.host.1) m.drawn function
    arguments with
  | none => rfl
  | some call =>
    dsimp only
    rw [Host.serve_noting]

/-! ### Runs without their traces -/

/-- Notes change nothing. -/
theorem lockstep_callNoted (setting : Setting σ) (function : String) (arguments : List Value)
    (span : Span) :
    Lockstep (fun noted host => noted.1 = host) (callNoted setting function arguments span)
      (callFunction setting function arguments span) := by
  intro m m' hm
  have hhost : m.host.1 = m'.host := hm.host
  unfold EndAlike
  rw [outcome_callNoted, outcome_callFunction, hhost, hm.drawn]
  cases requestOf setting.assets setting.seed (setting.host.canvas m'.host) m'.drawn function
    arguments with
  | none => exact ⟨_, m, m', rfl, rfl, hm⟩
  | some call => exact ⟨_, _, _, rfl, rfl, hm.asked call span setting.source rfl⟩

/-- **But for its trace**, a run with a trace is the run. -/
theorem run_eq_traced (world : World σ) (turns : Nat) (p : Program) (m : Machine σ) :
    run world turns p m = ((traced world turns p m).1,
      ⟨(traced world turns p m).2.env, (traced world turns p m).2.host.1,
        (traced world turns p m).2.diagnostics, (traced world turns p m).2.drawn⟩) := by
  have hlockstep : Lockstep (fun noted host => noted.1 = host)
      (executeTopWith (callNoted ⟨world, p.source⟩) p.source turns p.statements)
      (executeTop ⟨world, p.source⟩ turns p.statements) := by
    rw [← executeTopWith_eq]
    refine lockstep_congruence.executeTop (C := fun _ => True) (fun f arguments span _ => ?_)
      fun _ _ => trivial
    exact (lockstep_callNoted _ f arguments span).locate span p.source
  -- at the start there is no note, and whatever notes there are do not count
  obtain ⟨r, n, n', hn, hn', hmatches⟩ :=
    hlockstep ⟨m.env, (m.host, []), m.diagnostics, m.drawn⟩ m ⟨rfl, rfl, rfl, rfl⟩
  have htraced : traced world turns p m = (r, n) := hn
  have hrun : run world turns p m = (r, n') := hn'
  have hhost : n.host.1 = n'.host := hmatches.host
  rw [htraced, hrun, hmatches.eq_with, ← hhost]

/-! ### What is in a trace -/

variable {host : Host σ} {C : Span → Prop} {x : Action (σ × List Moment) α}

/-- The action adds moments to the trace, and leaves the host in the state after their requests.
They are at places where `C` holds. -/
def Noted (host : Host σ) (C : Span → Prop) (x : Action (σ × List Moment) α) : Prop :=
  ∀ m, ∃ moments, (outcome x m).2.host
      = (host.after (moments.map Moment.call) m.host.1, m.host.2 ++ moments) ∧
    ∀ moment ∈ moments, C moment.span

/-- A trace only grows. -/
theorem Noted.isPrefix (hx : Noted host C x) (m : Machine (σ × List Moment)) :
    m.host.2 <+: (outcome x m).2.host.2 := by
  obtain ⟨moments, hhost, -⟩ := hx m
  rw [hhost]
  exact List.prefix_append _ _

/-- An action that leaves the host alone. -/
theorem Noted.of_host (h : ∀ m, (outcome x m).2.host = m.host) : Noted host C x := by
  intro m
  refine ⟨[], ?_, nofun⟩
  rw [h, List.append_nil]
  rfl

theorem Noted.bind {f : α → Action (σ × List Moment) β} (hx : Noted host C x)
    (hf : ∀ a, Noted host C (f a)) : Noted host C (x >>= f) := by
  intro m
  obtain ⟨moments, hhost, hplaces⟩ := hx m
  rcases hxm : outcome x m with ⟨d | a, n⟩
  · rw [hxm] at hhost
    rw [outcome_bind_error hxm]
    exact ⟨moments, hhost, hplaces⟩
  · rw [hxm] at hhost
    rw [outcome_bind_ok hxm]
    obtain ⟨moments', hhost', hplaces'⟩ := hf a n
    refine ⟨moments ++ moments', ?_, List.forall_mem_append.mpr ⟨hplaces, hplaces'⟩⟩
    rw [hhost', hhost, List.map_append, Host.after_append, List.append_assoc]

/-- The first of two actions leaves a beginning of the trace of both. -/
theorem isPrefix_bind {f : α → Action (σ × List Moment) β} (hf : ∀ a, Noted host C (f a))
    (m : Machine (σ × List Moment)) :
    (outcome x m).2.host.2 <+: (outcome (x >>= f) m).2.host.2 := by
  rcases hxm : outcome x m with ⟨d | a, n⟩
  · rw [outcome_bind_error hxm]
  · rw [outcome_bind_ok hxm]
    exact (hf a).isPrefix n

theorem machine_locate (x : Action σ α) (span : Span) (source : Nat) (m : Machine σ) :
    (outcome (locate span source x) m).2 = (outcome x m).2 := by
  rw [outcome_locate]
  rcases outcome x m with ⟨_ | a, n⟩ <;> rfl

theorem Noted.locate (hx : Noted host C x) (span : Span) (source : Nat) :
    Noted host C (locate span source x) := by
  intro m
  rw [machine_locate]
  exact hx m

theorem Noted.inScope (hx : Noted host C x) : Noted host C (inScope x) :=
  fun m => hx { m with env := m.env.push }

theorem host_readVariable (name : String) (m : Machine σ) :
    (outcome (readVariable name) m).2.host = m.host := by
  unfold readVariable
  rw [outcome_bind_ok (outcome_get m)]
  cases m.env.get? name <;> rfl

theorem host_assignVariable (name : String) (value : Value) (m : Machine σ) :
    (outcome (assignVariable name value) m).2.host = m.host := by
  unfold assignVariable
  rw [outcome_bind_ok (outcome_get m)]
  cases m.env.assign? name value <;> rfl

/-- **Noting is kept by all constructs of actions.** -/
theorem noted_congruence :
    Congruence fun {α} (x _ : Action (σ × List Moment) α) => Noted host C x where
  pure _ := .of_host fun _ => rfl
  fail _ := .of_host fun _ => rfl
  bind := Noted.bind
  locate span source hx := hx.locate span source
  inScope := Noted.inScope
  readVariable name := .of_host (host_readVariable name)
  assignVariable name value := .of_host (host_assignVariable name value)
  declare _ _ := .of_host fun _ => rfl

theorem noted_callNoted (setting : Setting σ) (function : String) (arguments : List Value)
    {span : Span} (hspan : C span) :
    Noted setting.host C (callNoted setting function arguments span) := by
  intro m
  rw [outcome_callNoted]
  cases requestOf setting.assets setting.seed (setting.host.canvas m.host.1) m.drawn function
    arguments with
  | none => exact Noted.of_host (x := fail _) (fun _ => rfl) m
  | some call =>
    refine ⟨[⟨call, span, m.env, m.diagnostics⟩], ?_, List.forall_mem_singleton.mpr hspan⟩
    rw [Machine.host_asked]
    rfl

/-- **The trace accounts for the host**: it is left in the state after the requests of the trace,
all of which come from calls of the program. -/
theorem host_traced (world : World σ) (turns : Nat) (p : Program) (m : Machine σ) :
    (traced world turns p m).2.host.1
        = world.host.after ((trace world turns p m).map Moment.call) m.host ∧
      ∀ moment ∈ trace world turns p m, moment.span ∈ p.calls := by
  have hcall (f : String) (arguments : List Value) (span : Span) (hspan : span ∈ p.calls) :
      Noted world.host (· ∈ p.calls)
        (locate span p.source (callNoted ⟨world, p.source⟩ f arguments span)) :=
    (noted_callNoted ⟨world, p.source⟩ f arguments hspan).locate span p.source
  have hnoted : Noted world.host (· ∈ p.calls)
      (executeTopWith (callNoted ⟨world, p.source⟩) p.source turns p.statements) :=
    -- this is a property of one run, so the run beside it may be the same one
    @Congruence.executeTop _ _ _ _ (callNoted ⟨world, p.source⟩) _ _ _ noted_congruence hcall _
      fun _ h => h
  obtain ⟨moments, hhost, hplaces⟩ :=
    hnoted ⟨m.env, (m.host, []), m.diagnostics, m.drawn⟩
  have htrace : trace world turns p m = moments := congrArg Prod.snd hhost
  rw [htrace]
  exact ⟨congrArg Prod.fst hhost, hplaces⟩

end Blockwork.Run
