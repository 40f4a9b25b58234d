import Mathlib
import Blockwork.Proofs.Run.Scopes
import Blockwork.Proofs.Run.Traces
import Blockwork.Run.Terminal
import Blockwork.Script.Statement

/-!
# Runs stop where the host fails

A program is run on two hosts that behave alike up to some request, at which the second one fails.
Then the second run ends there: nothing else is evaluated, whatever the request was made from, and
nothing else is asked. What is still done on the way out is that scopes are left, so the scopes that
remain are those of the caller, as they were at that moment.

The two runs are followed side by side, and the trace of the first one says where they are. While it
has not come to the failure, the runs are the same but for their hosts; once it has, the second run
has stopped, and the first may do what it likes (`Breakdown.Stops`). This says nothing of traces
that part from the given one before the failure, which is why it is kept when actions are put
together: traces only grow, so all traces on the way to the given one agree with it.

## Main result

* `run_stops`: how a run ends on a host that fails.
-/

namespace Blockwork.Run

open Script Blockwork.Run.Action

variable {σ τ α β : Type}

/-! ### Hosts that behave alike for a while -/

/-- **Two hosts behave alike for these requests**: they reply the same to each of them, and before
each of them that may depend on the canvas they have the same canvas. -/
def Host.Agree (host : Host σ) (host' : Host τ) : List HostCall → σ → τ → Prop
  | [], _, _ => True
  | call :: calls, s, t =>
    (call.regardsCanvas = true → host.canvas s = host'.canvas t) ∧
      (host.serve call s).1 = (host'.serve call t).1 ∧
      Agree host host' calls (host.serve call s).2 (host'.serve call t).2

theorem Host.Agree.at {host : Host σ} {host' : Host τ} {earlier later : List HostCall}
    {call : HostCall} {s : σ} {t : τ} (h : host.Agree host' (earlier ++ call :: later) s t) :
    (call.regardsCanvas = true →
      host.canvas (host.after earlier s) = host'.canvas (host'.after earlier t)) ∧
    (host.serve call (host.after earlier s)).1 = (host'.serve call (host'.after earlier t)).1 := by
  induction earlier generalizing s t with
  | nil => exact ⟨h.1, h.2.1⟩
  | cons first earlier ih => exact ih h.2.2

/-- Two hosts that behave alike for the requests before a moment, at which the second one fails. -/
structure Breakdown (σ τ : Type) where
  host : Host σ
  host' : Host τ
  state : σ
  state' : τ
  before : List Moment
  moment : Moment
  text : String
  agree : host.Agree host' (before.map Moment.call) state state'
  fails : (host'.serve moment.call (host'.after (before.map Moment.call) state')).1 = .failed text

namespace Breakdown

variable (b : Breakdown σ τ) {C : Span → Prop} {source : Nat} {x : Action (σ × List Moment) α}
  {y : Action (τ × List Moment) α}

/-! ### Side by side -/

/-- Both hosts have been asked for the same, and this is a beginning of what comes before the
failure. -/
structure Alongside (noted : σ × List Moment) (noted' : τ × List Moment) : Prop where
  moments : noted.2 = noted'.2
  host : noted.1 = b.host.after (noted.2.map Moment.call) b.state
  host' : noted'.1 = b.host'.after (noted'.2.map Moment.call) b.state'
  earlier : noted.2 <+: b.before

/-- The fault at which the second run ends. -/
def fault (source : Nat) : Diagnostic :=
  ⟨.hostFailure b.text, some b.moment.span, source, false⟩

/-- **The machine after the failure.** The request that fails is the last one. The scopes that have
not been left are as they were. -/
structure Left (m : Machine (τ × List Moment)) : Prop where
  host : m.host.1 = b.host'.after ((b.before ++ [b.moment]).map Moment.call) b.state'
  moments : m.host.2 = b.before ++ [b.moment]
  diagnostics : m.diagnostics = b.moment.diagnostics
  inner : m.env.inner <:+ b.moment.env.inner
  global : m.env.global = b.moment.env.global

/-- **The second action stops at the failure**, and before it does the same as the first one. -/
structure Stops (C : Span → Prop) (source : Nat) (x : Action (σ × List Moment) α)
    (y : Action (τ × List Moment) α) : Prop where
  noted : Noted b.host C x
  alike (m m') : m.Matches b.Alongside m' → (outcome x m).2.host.2 <+: b.before →
    EndAlike b.Alongside x y m m'
  stopped (m m') : m.Matches b.Alongside m' →
    b.before ++ [b.moment] <+: (outcome x m).2.host.2 →
    ∃ n', outcome y m' = (.error (b.fault source), n') ∧ b.Left n'

variable {b}

theorem Left.withEnv {m : Machine (τ × List Moment)} (h : b.Left m) {env : Environment}
    (hinner : env.inner <:+ m.env.inner) (hglobal : env.global = m.env.global) :
    b.Left { m with env } where
  host := h.host
  moments := h.moments
  diagnostics := h.diagnostics
  inner := hinner.trans h.inner
  global := hglobal.trans h.global

/-- A trace on the way to the failure either has come to it or is still before it. -/
theorem isPrefix_before_or {moments moments' : List Moment} (h : moments <+: moments')
    (hfailure : b.before ++ [b.moment] <+: moments') :
    b.before ++ [b.moment] <+: moments ∨ moments <+: b.before := by
  rcases List.prefix_or_prefix_of_prefix h hfailure with hprefix | hprefix
  · rcases List.prefix_concat_iff.mp hprefix with rfl | hbefore
    · exact .inl List.prefix_rfl
    · exact .inr hbefore
  · exact .inl hprefix

/-- Before the failure it has not come to it. -/
theorem Alongside.not_failure {noted : σ × List Moment} {noted' : τ × List Moment}
    (h : b.Alongside noted noted') : ¬ b.before ++ [b.moment] <+: noted.2 := by
  intro hfailure
  have hlength := (hfailure.trans h.earlier).length_le
  rw [List.length_append, List.length_singleton] at hlength
  omega

/-- An action that leaves the host alone does not come to the failure. -/
theorem Stops.of_lockstep (hhost : ∀ m, (outcome x m).2.host = m.host)
    (h : Lockstep b.Alongside x y) : b.Stops C source x y where
  noted := .of_host hhost
  alike m m' hm _ := h m m' hm
  stopped m m' hm hfailure := by
    rw [hhost] at hfailure
    exact absurd hfailure hm.host.not_failure

/-! ### Constructs of actions -/

theorem Stops.bind {f : α → Action (σ × List Moment) β} {g : α → Action (τ × List Moment) β}
    (hx : b.Stops C source x y) (hf : ∀ a, b.Stops C source (f a) (g a)) :
    b.Stops C source (x >>= f) (y >>= g) where
  noted := hx.noted.bind fun a => (hf a).noted
  alike m m' hm hbefore := by
    have hgrows := isPrefix_bind (x := x) (fun a => (hf a).noted) m
    refine (hx.alike m m' hm (hgrows.trans hbefore)).bind fun a n n' hn hmatches => ?_
    rw [outcome_bind_ok hn] at hbefore
    exact (hf a).alike n n' hmatches hbefore
  stopped m m' hm hfailure := by
    have hgrows := isPrefix_bind (x := x) (fun a => (hf a).noted) m
    rcases isPrefix_before_or hgrows hfailure with hfirst | hfirst
    -- the failure is in the first action, and what follows is never begun
    · obtain ⟨n', hn', hleft⟩ := hx.stopped m m' hm hfirst
      exact ⟨n', outcome_bind_error hn', hleft⟩
    · obtain ⟨d | a, n, n', hn, hn', hmatches⟩ := hx.alike m m' hm hfirst
      -- a fault of another sort would have kept the trace from coming to the failure
      · rw [outcome_bind_error hn] at hfailure
        exact absurd hfailure hmatches.host.not_failure
      · rw [outcome_bind_ok hn] at hfailure
        rw [outcome_bind_ok hn']
        exact (hf a).stopped n n' hmatches hfailure

/-- The fault at which the second run ends has its place already. -/
theorem Stops.locate (span : Span) (source' : Nat) (hx : b.Stops C source x y) :
    b.Stops C source (Action.locate span source' x) (Action.locate span source' y) where
  noted := hx.noted.locate span source'
  alike m m' hm hbefore := by
    rw [machine_locate] at hbefore
    exact (hx.alike m m' hm hbefore).locate span source'
  stopped m m' hm hfailure := by
    rw [machine_locate] at hfailure
    obtain ⟨n', hn', hleft⟩ := hx.stopped m m' hm hfailure
    -- the place of the call stays, whatever the call stands in
    rw [outcome_locate, hn']
    exact ⟨n', rfl, hleft⟩

/-- A scope is left also after the failure. It was the innermost one. -/
theorem Stops.inScope (hx : b.Stops C source x y) :
    b.Stops C source (Action.inScope x) (Action.inScope y) where
  noted := hx.noted.inScope
  alike m m' hm hbefore :=
    .inScope hm.env (hx.alike _ _ (hm.withEnv m.env.push) hbefore)
  stopped m m' hm hfailure := by
    have hpush := hm.withEnv m.env.push
    obtain ⟨n', hn', hleft⟩ := hx.stopped _ _ hpush hfailure
    rw [outcome_inScope, ← hm.env, hn']
    -- of the scopes that were open at the failure one more is gone, and none has changed
    exact ⟨_, rfl, hleft.withEnv (List.tail_suffix _) rfl⟩

/-- **Stopping is kept by all constructs of actions.** -/
theorem stops_congruence :
    Congruence fun {α} (x : Action (σ × List Moment) α) y => b.Stops C source x y where
  pure _ := .of_lockstep (fun _ => rfl) (lockstep_congruence.pure _)
  fail _ := .of_lockstep (fun _ => rfl) (lockstep_congruence.fail _)
  bind := Stops.bind
  locate := Stops.locate
  inScope := Stops.inScope
  readVariable name := .of_lockstep (host_readVariable name) (lockstep_readVariable name)
  assignVariable name value :=
    .of_lockstep (host_assignVariable name value) (lockstep_assignVariable name value)
  declare _ _ := .of_lockstep (fun _ => rfl) (lockstep_congruence.declare _ _)

/-! ### Calls -/

section Calls

variable {noted : σ × List Moment} {noted' : τ × List Moment}

/-- The next request before the failure gets the same reply from both hosts. -/
theorem Alongside.next (h : b.Alongside noted noted') {moment : Moment}
    (hnext : noted.2 ++ [moment] <+: b.before) :
    (moment.call.regardsCanvas = true → b.host.canvas noted.1 = b.host'.canvas noted'.1) ∧
      (b.host.serve moment.call noted.1).1 = (b.host'.serve moment.call noted'.1).1 ∧
      b.Alongside ((b.host.serve moment.call noted.1).2, noted.2 ++ [moment])
        ((b.host'.serve moment.call noted'.1).2, noted'.2 ++ [moment]) := by
  obtain ⟨later, hlater⟩ := hnext
  -- the hosts agree on what has been asked, then on this request, and later ones do not matter
  have hagree := b.agree
  rw [← hlater, List.map_append, List.map_append, List.append_assoc] at hagree
  obtain ⟨hcanvas, hreply⟩ := Host.Agree.at hagree
  rw [← h.host, h.moments, ← h.host'] at hcanvas hreply
  refine ⟨hcanvas, hreply, ⟨?_, ?_, ?_, later, hlater⟩⟩
  · rw [h.moments]
  · rw [h.host, List.map_append, Host.after_append]
    rfl
  · rw [h.host', List.map_append, Host.after_append]
    rfl

/-- A request that brings the trace to the failure is the one that fails. -/
theorem Alongside.fails (h : b.Alongside noted noted') {moment : Moment}
    (hfailure : b.before ++ [b.moment] <+: noted.2 ++ [moment]) :
    noted.2 = b.before ∧ moment = b.moment ∧
      (b.host'.serve moment.call noted'.1).1 = .failed b.text := by
  -- the trace is not longer than what comes before the failure, so the one moment fills it up
  have hlength := h.earlier.length_le
  have heq : b.before ++ [b.moment] = noted.2 ++ [moment] :=
    hfailure.eq_of_length_le (by simp only [List.length_append, List.length_singleton]; omega)
  obtain ⟨hbefore, hmoment⟩ := List.append_inj' heq rfl
  obtain rfl := List.singleton_inj.mp hmoment
  refine ⟨hbefore.symm, rfl, ?_⟩
  rw [h.host', ← h.moments, ← hbefore]
  exact b.fails

variable {assets : AssetStore} {seed : UInt64} {function : String} {arguments : List Value}
  {span : Span} {m : Machine (σ × List Moment)} {m' : Machine (τ × List Moment)}

/-- A call before the failure. -/
theorem callNoted_alike (hm : m.Matches b.Alongside m')
    (hbefore : (outcome (callNoted ⟨⟨b.host, assets, seed⟩, source⟩ function arguments span)
      m).2.host.2 <+: b.before) :
    EndAlike b.Alongside (callNoted ⟨⟨b.host, assets, seed⟩, source⟩ function arguments span)
      (callNoted ⟨⟨b.host', assets, seed⟩, source⟩ function arguments span) m m' := by
  rw [outcome_callNoted] at hbefore
  -- if the canvas counts for the request, this is one before which the canvases are the same
  have hsame : requestOf assets seed (b.host'.canvas m'.host.1) m.drawn function arguments
      = requestOf assets seed (b.host.canvas m.host.1) m.drawn function arguments := by
    refine requestOf_congr fun call hcall hregards => ?_
    rw [hcall] at hbefore
    rw [Machine.host_asked] at hbefore
    exact (hm.host.next hbefore).1 hregards
  unfold EndAlike
  rw [outcome_callNoted, outcome_callNoted, ← hm.drawn, hsame]
  cases hcall : requestOf assets seed (b.host.canvas m.host.1) m.drawn function arguments with
  | none => exact ⟨_, m, m', rfl, rfl, hm⟩
  | some call =>
    rw [hcall] at hbefore
    rw [Machine.host_asked] at hbefore
    obtain ⟨-, hreply, hnext⟩ := hm.host.next hbefore
    dsimp only at hreply ⊢
    rw [hreply, ← hm.env, ← hm.diagnostics]
    exact ⟨_, _, _, rfl, rfl, hm.asked call span source hnext⟩

/-- The call that fails. -/
theorem callNoted_stopped (hm : m.Matches b.Alongside m')
    (hfailure : b.before ++ [b.moment] <+: (outcome
      (callNoted ⟨⟨b.host, assets, seed⟩, source⟩ function arguments span) m).2.host.2) :
    ∃ n', outcome (callNoted ⟨⟨b.host', assets, seed⟩, source⟩ function arguments span) m'
        = (.error (.ofCause (.hostFailure b.text)), n') ∧ b.moment.span = span ∧ b.Left n' := by
  rw [outcome_callNoted] at hfailure
  cases hcall : requestOf assets seed (b.host.canvas m.host.1) m.drawn function arguments with
  | none =>
    rw [hcall] at hfailure
    exact absurd hfailure hm.host.not_failure
  | some call =>
    rw [hcall] at hfailure
    rw [Machine.host_asked] at hfailure
    obtain ⟨hmoments, hmoment, hfails⟩ := hm.host.fails hfailure
    have hregards := HostCall.regardsCanvas_of_failed hfails
    -- the canvases may differ here, but do not count
    have hsame : requestOf assets seed (b.host'.canvas m'.host.1) m.drawn function arguments
        = some call := by
      rw [← hcall]
      refine requestOf_congr fun call' hcall' hregards' => ?_
      obtain rfl := Option.some.inj (hcall.symm.trans hcall')
      rw [hregards] at hregards'
      cases hregards'
    rw [outcome_callNoted, ← hm.drawn, hsame]
    dsimp only at hfails ⊢
    rw [hfails]
    refine ⟨_, rfl, congrArg Moment.span hmoment.symm, ?_, ?_, ?_, ?_, ?_⟩
    · rw [Machine.host_asked, hm.host.host', ← hm.host.moments, hmoments, List.map_append,
        Host.after_append, ← hmoment]
      rfl
    · rw [Machine.host_asked, ← hm.host.moments, hmoments, ← hmoment, hm.env, hm.diagnostics]
    · rw [Machine.diagnostics_asked m' hregards, ← hmoment, hm.diagnostics]
    · rw [Machine.env_asked, ← hmoment, hm.env]
    · rw [Machine.env_asked, ← hmoment, hm.env]

/-- **Calls stop at the failure**, and give it their place. -/
theorem stops_callNoted (hspan : C span) :
    b.Stops C source
      (Action.locate span source
        (callNoted ⟨⟨b.host, assets, seed⟩, source⟩ function arguments span))
      (Action.locate span source
        (callNoted ⟨⟨b.host', assets, seed⟩, source⟩ function arguments span)) where
  noted := (noted_callNoted _ function arguments hspan).locate span source
  alike m m' hm hbefore := by
    rw [machine_locate] at hbefore
    exact (callNoted_alike hm hbefore).locate span source
  stopped m m' hm hfailure := by
    rw [machine_locate] at hfailure
    obtain ⟨n', hn', hspan, hleft⟩ := callNoted_stopped hm hfailure
    rw [outcome_locate, hn', fault, hspan]
    exact ⟨n', rfl, hleft⟩

end Calls

/-! ### Programs -/

/-- The second run stops at the failure. -/
theorem traced_stops (b : Breakdown σ τ) {assets : AssetStore} {seed : UInt64} {turns : Nat}
    {p : Program} {env : Environment} {diagnostics : Array Diagnostic} {drawn : Nat}
    (h : b.before ++ [b.moment]
      <+: trace ⟨b.host, assets, seed⟩ turns p ⟨env, b.state, diagnostics, drawn⟩) :
    ∃ m, traced ⟨b.host', assets, seed⟩ turns p ⟨env, b.state', diagnostics, drawn⟩
        = (.error (b.fault p.source), m) ∧ b.Left m := by
  have hstops : b.Stops (· ∈ p.calls) p.source
      (executeTopWith (callNoted ⟨⟨b.host, assets, seed⟩, p.source⟩) p.source turns p.statements)
      (executeTopWith (callNoted ⟨⟨b.host', assets, seed⟩, p.source⟩) p.source turns
        p.statements) :=
    stops_congruence.executeTop (fun _ _ _ hspan => stops_callNoted hspan) fun _ h => h
  have hstart : Machine.Matches b.Alongside ⟨env, (b.state, []), diagnostics, drawn⟩
      ⟨env, (b.state', []), diagnostics, drawn⟩ :=
    ⟨rfl, rfl, rfl, rfl, rfl, rfl, List.nil_prefix⟩
  exact hstops.stopped _ _ hstart h

end Breakdown

/-- **A run stops where its host fails.** Two hosts behave alike for the first requests of a run on
the first of them, and at the next request, which the call at some moment of that run makes, the
second host fails. On it the run makes these requests and no other, and ends with the failure, at
the place of that call. It leaves the second host as these requests do, the warnings that there were
at that moment, and of the scopes at that moment as many as it was started with, as they were. -/
theorem run_stops {host : Host σ} {host' : Host τ} {assets : AssetStore} {seed : UInt64}
    {turns : Nat} {p : Program} {env : Environment} {diagnostics : Array Diagnostic} {drawn : Nat}
    {s : σ} {t : τ} {before after : List Moment} {moment : Moment} {text : String}
    (htrace : trace ⟨host, assets, seed⟩ turns p ⟨env, s, diagnostics, drawn⟩
      = before ++ moment :: after)
    (hagree : host.Agree host' (before.map Moment.call) s t)
    (hfails : (host'.serve moment.call (host'.after (before.map Moment.call) t)).1
      = .failed text) :
    ∃ machine,
      run ⟨host', assets, seed⟩ turns p ⟨env, t, diagnostics, drawn⟩
        = (.error ⟨.hostFailure text, some moment.span, p.source, false⟩, machine) ∧
      trace ⟨host', assets, seed⟩ turns p ⟨env, t, diagnostics, drawn⟩ = before ++ [moment] ∧
      machine.host = host'.after ((before ++ [moment]).map Moment.call) t ∧
      machine.diagnostics = moment.diagnostics ∧
      machine.env.scopes <:+ moment.env.scopes ∧ machine.env.depth = env.depth ∧
      moment.span ∈ p.calls := by
  let b : Breakdown σ τ := ⟨host, host', s, t, before, moment, text, hagree, hfails⟩
  have hprefix : before ++ [moment]
      <+: trace ⟨host, assets, seed⟩ turns p ⟨env, s, diagnostics, drawn⟩ := by
    rw [htrace]
    exact ⟨after, (List.append_cons before moment after).symm⟩
  have hcall : moment ∈ trace ⟨host, assets, seed⟩ turns p ⟨env, s, diagnostics, drawn⟩ := by
    rw [htrace]
    exact List.mem_append_right _ List.mem_cons_self
  obtain ⟨m, hm, hleft⟩ := b.traced_stops hprefix
  -- the run itself is the one with a trace, without it
  have hrun := run_eq_traced ⟨host', assets, seed⟩ turns p ⟨env, t, diagnostics, drawn⟩
  rw [hm] at hrun
  refine ⟨_, hrun, ?_, hleft.host, hleft.diagnostics, ?_, ?_, (host_traced _ _ _ _).2 moment hcall⟩
  · unfold trace
    rw [hm]
    exact hleft.moments
  · obtain ⟨gone, hgone⟩ := hleft.inner
    refine ⟨gone, ?_⟩
    unfold Environment.scopes
    rw [← List.append_assoc, hleft.global, hgone]
  -- that all scopes of the call are left holds of every run, whether or not it ends at a fault
  · have hframe : Environment.Frame (Stmt.assignedAll p.statements)
        (p.statements.flatMap Stmt.declared) env
        (run ⟨host', assets, seed⟩ turns p ⟨env, t, diagnostics, drawn⟩).2.env :=
      confined_executeTop p.statements ⟨env, t, diagnostics, drawn⟩
    rw [hrun] at hframe
    exact hframe.depth

/-- A terminal whose output holds three bytes. -/
def Terminal.narrow : Terminal :=
  { Terminal.start [] none with out := .empty (some 3) }

/-- Three lines in a branch, with a change of a variable from outside between them. -/
def threeLines : String :=
  "let x = \"a\"; if (!confirm(x)) \x7b let y = \"b\"; print(y); x = \"d\"; " ++
    "print(x); print(y); \x7d"

/-- The second line does not fit in the output. On a recording a third one follows. -/
theorem run_stops_full : ∃ p before moment after machine,
    Program.parse threeLines 7 = .ok p ∧
    trace ⟨Recording.host, [], 0⟩ 1 p (.start (.start none [] [])) = before ++ moment :: after ∧
    before.map Moment.call = [.confirm "a", .print "b"] ∧ moment.call = .print "d" ∧
    after.map Moment.call = [.print "b"] ∧
    run ⟨Terminal.host, [], 0⟩ 1 p (.start .narrow)
      = (.error ⟨.hostFailure "disk full", some moment.span, 7, false⟩, machine) ∧
    trace ⟨Terminal.host, [], 0⟩ 1 p (.start .narrow) = before ++ [moment] ∧
    machine.env.scopes <:+ moment.env.scopes ∧ machine.env.depth = 1 := by
  have hread : (Program.parse threeLines 7).toOption.any (fun p => decide (p.source = 7 ∧
      (trace ⟨Recording.host, [], 0⟩ 1 p (.start (.start none [] []))).map Moment.call
        = [.confirm "a", .print "b"] ++ [.print "d", .print "b"])) = true := by
    decide +kernel
  obtain ⟨p, hp, htest⟩ := exists_of_any hread
  obtain ⟨hsource, hcalls⟩ := of_decide_eq_true htest
  obtain ⟨before, others, htrace, hbefore, hothers⟩ := List.map_eq_append_iff.mp hcalls
  obtain ⟨moment, after, rfl, hmoment, hafter⟩ := List.map_eq_cons_iff.mp hothers
  have hagree : Recording.host.Agree Terminal.host (before.map Moment.call) (.start none [] [])
      .narrow := by
    rw [hbefore]
    exact ⟨nofun, rfl, nofun, rfl, trivial⟩
  have hfails : (Terminal.host.serve moment.call
      (Terminal.host.after (before.map Moment.call) .narrow)).1 = .failed "disk full" := by
    rw [hbefore, hmoment]
    decide +kernel
  obtain ⟨machine, hrun, htrace', -, -, hscopes, hdepth, -⟩ := run_stops htrace hagree hfails
  rw [hsource] at hrun
  exact ⟨p, before, moment, after, machine, hp, htrace, hbefore, hmoment, hafter, hrun, htrace',
    hscopes, hdepth⟩

end Blockwork.Run
