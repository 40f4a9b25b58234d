import Mathlib
import Blockwork.Proofs.Run.Acting
import Blockwork.Proofs.Run.Depth
import Blockwork.Proofs.Script.Placing

/-!
# Where faults and warnings point

A fault comes up without a place, and the first construct above it that gives places gives it its
own (`Reports.locate`). Expressions let some faults go up without a place, statements let none go
(`reports_evaluate`, `reports_execute`): what leaves a statement lies within it. Warnings have the
place of the call that gave them.

## Main result

* `run_reports`: the fault at which a run of a parsed program ends has a place in the source, within
  the statement that was executed, and the warnings that are added have the places of calls.
-/

namespace Blockwork

namespace Script

/-! ### Calls -/

mutual

/-- The places of the calls in an expression. -/
def Expr.calls : Expr → List Span
  | .number _ | .text _ | .bool _ | .var _ _ => []
  | .call _ arguments span => span :: Expr.callsAll arguments
  | .unary _ e => e.calls
  | .binary _ l r _ => l.calls ++ r.calls

def Expr.callsAll : List Expr → List Span
  | [] => []
  | e :: es => e.calls ++ Expr.callsAll es

end

/-- The places of the calls in a statement. -/
def Simple.calls : Simple → List Span
  | .declare _ e _ | .assign _ _ e _ | .evaluate e _ => e.calls
  | .increment _ _ => []

mutual

/-- The places of the calls in a statement. -/
def Stmt.calls : Stmt → List Span
  | .simple s => s.calls
  | .ifThen c body _ | .while c body _ => c.calls ++ Stmt.callsAll body
  | .ifElse c body otherwise _ => c.calls ++ (Stmt.callsAll body ++ Stmt.callsAll otherwise)
  | .for first c update body _ =>
    first.elim [] Simple.calls ++ (c.elim [] Expr.calls ++
      (update.elim [] Simple.calls ++ Stmt.callsAll body))
  | .break _ => []
  | .block body _ => Stmt.callsAll body

def Stmt.callsAll : List Stmt → List Span
  | [] => []
  | s :: ss => s.calls ++ Stmt.callsAll ss

end

/-- The places of the calls in a program. -/
def Program.calls (p : Program) : List Span :=
  Stmt.callsAll p.statements

variable {C : Span → Prop}

theorem Expr.forall_mem_callsAll {es : List Expr} :
    (∀ span ∈ Expr.callsAll es, C span) ↔ ∀ e ∈ es, ∀ span ∈ e.calls, C span := by
  induction es with
  | nil => simp [Expr.callsAll]
  | cons e es ih => rw [Expr.callsAll, List.forall_mem_append, ih, List.forall_mem_cons]

theorem Stmt.forall_mem_callsAll {ss : List Stmt} :
    (∀ span ∈ Stmt.callsAll ss, C span) ↔ ∀ s ∈ ss, ∀ span ∈ s.calls, C span := by
  induction ss with
  | nil => simp [Stmt.callsAll]
  | cons s ss ih => rw [Stmt.callsAll, List.forall_mem_append, ih, List.forall_mem_cons]

end Script

namespace Run

open Script Blockwork.Run.Action

/-! ### What actions report -/

variable {σ α β : Type} {D D' W : Diagnostic → Prop} {x : Action σ α}

/-- The fault at which the action stops is of one sort, and the warnings that it adds are of
another. Diagnostics that are there already stay. -/
def Reports (D W : Diagnostic → Prop) (x : Action σ α) : Prop :=
  ∀ m r m', outcome x m = (r, m') → (∀ d, r = .error d → D d) ∧
    ∃ added, m'.diagnostics = m.diagnostics ++ added ∧ ∀ w ∈ added, W w

theorem reports_of_ok
    (h : ∀ m, ∃ a m', outcome x m = (.ok a, m') ∧ m'.diagnostics = m.diagnostics) :
    Reports D W x := by
  intro m r m' hx
  obtain ⟨a, m'', hok, hsame⟩ := h m
  rw [hok] at hx
  cases hx
  exact ⟨nofun, #[], by rw [hsame, Array.append_empty], by simp⟩

theorem reports_pure (a : α) : Reports D W (pure a : Action σ α) :=
  reports_of_ok fun m => ⟨a, m, rfl, rfl⟩

theorem reports_fail {cause : RunCause} (h : D (.ofCause cause)) :
    Reports D W (fail cause : Action σ α) := by
  intro m r m' hx
  cases hx
  refine ⟨fun d hd => ?_, #[], by rw [Array.append_empty], by simp⟩
  cases hd
  exact h

theorem Reports.bind {f : α → Action σ β} (hx : Reports D W x) (hf : ∀ a, Reports D W (f a)) :
    Reports D W (x >>= f) := by
  intro m r m' h
  rw [outcome_bind] at h
  rcases hout : outcome x m with ⟨e | a, t⟩
  · rw [hout] at h
    cases h
    obtain ⟨hfault, hadded⟩ := hx m _ _ hout
    exact ⟨fun d hd => hfault d (congrArg Except.error (Except.error.inj hd)), hadded⟩
  · rw [hout] at h
    obtain ⟨-, added, hadded, hw⟩ := hx m _ _ hout
    obtain ⟨hfault, added', hadded', hw'⟩ := hf a t r m' h
    -- the warnings of both, one behind the other
    refine ⟨hfault, added ++ added', ?_, ?_⟩
    · rw [hadded', hadded, Array.append_assoc]
    · intro w hmem
      rcases Array.mem_append.mp hmem with hmem | hmem
      · exact hw w hmem
      · exact hw' w hmem

theorem Reports.mono (hx : Reports D W x) (h : ∀ d, D d → D' d) : Reports D' W x := by
  intro m r m' hout
  obtain ⟨hfault, hadded⟩ := hx m r m' hout
  exact ⟨fun d hd => h d (hfault d hd), hadded⟩

/-- The fault gets a place, if it has none. -/
theorem Reports.locate {span : Span} {source : Nat} (hx : Reports D W x)
    (h : ∀ d, D d → D' (d.locate span source)) : Reports D' W (locate span source x) := by
  intro m r m' hout
  rw [outcome_locate] at hout
  rcases hx' : outcome x m with ⟨e | a, t⟩
  · rw [hx'] at hout
    cases hout
    obtain ⟨hfault, hadded⟩ := hx m _ _ hx'
    refine ⟨fun d hd => ?_, hadded⟩
    cases hd
    exact h e (hfault e rfl)
  · rw [hx'] at hout
    cases hout
    exact ⟨nofun, (hx m _ _ hx').2⟩

theorem Reports.inScope (hx : Reports D W x) : Reports D W (inScope x) := by
  intro m r m' hout
  rw [outcome_inScope] at hout
  rcases hx' : outcome x { m with env := m.env.push } with ⟨r', t⟩
  rw [hx'] at hout
  cases hout
  exact hx { m with env := m.env.push } r' t hx'

theorem reports_ask {request : σ → Except String α × σ}
    (h : ∀ text, D (.ofCause (.hostFailure text))) : Reports D W (ask request) := by
  intro m r m' hout
  rw [outcome_ask] at hout
  split at hout
  · cases hout
    exact ⟨nofun, #[], by rw [Array.append_empty], by simp⟩
  · next text host _ =>
    cases hout
    refine ⟨fun d hd => ?_, #[], by rw [Array.append_empty], by simp⟩
    cases hd
    exact h text

theorem reports_warn {setting : Setting σ} {text : String} {span : Span}
    (h : W ⟨.custom text, some span, setting.source, true⟩) :
    Reports D W (warn setting text span) := by
  intro m r m' hout
  rw [outcome_warn] at hout
  cases hout
  refine ⟨nofun, #[⟨.custom text, some span, setting.source, true⟩], ?_, ?_⟩
  · exact Array.push_eq_append
  · intro w hw
    obtain rfl := Array.mem_singleton.mp hw
    exact h

theorem Reports.iterate {turn : Action σ Bool} (h : Reports D W turn)
    (hturns : D (.ofCause .outOfTurns)) (turns : Nat) : Reports D W (iterate turns turn) := by
  induction turns with
  | zero => exact reports_fail hturns
  | succ turns ih =>
    rw [Action.iterate]
    refine h.bind fun more => ?_
    cases more with
    | true => exact ih
    | false => exact reports_pure ()

/-! ### Places of diagnostics -/

variable {source : Nat} {F C : Span → Prop}

/-- The diagnostic has a place where `F` holds, in this source. -/
def PointsTo (source : Nat) (F : Span → Prop) (d : Diagnostic) : Prop :=
  ∃ span, d.span = some span ∧ F span ∧ d.source = source

/-- The diagnostic has no place yet, or such a one. -/
def MayPoint (source : Nat) (F : Span → Prop) (d : Diagnostic) : Prop :=
  d.span = none ∨ PointsTo source F d

/-- The diagnostic has such a place, or says only that the run was too long. -/
def Settled (source : Nat) (F : Span → Prop) (d : Diagnostic) : Prop :=
  d.cause = .outOfTurns ∧ d.span = none ∨ PointsTo source F d

theorem Settled.mayPoint {d : Diagnostic} (h : Settled source F d) : MayPoint source F d :=
  h.imp_left And.right

theorem MayPoint.locate {d : Diagnostic} {span : Span} (h : MayPoint source F d) (hspan : F span) :
    PointsTo source F (d.locate span source) := by
  unfold Diagnostic.locate
  rcases h with h | ⟨span', h, hF, hsource⟩
  · rw [h]
    exact ⟨span, rfl, hspan, rfl⟩
  · rw [h]
    exact ⟨span', h, hF, hsource⟩

/-- Whatever may go up without a place has one above a construct that gives places. -/
theorem Reports.settle {span : Span} (h : Reports (MayPoint source F) W x) (hspan : F span) :
    Reports (Settled source F) W (Action.locate span source x) :=
  h.locate fun _ hd => .inr (hd.locate hspan)

/-! ### Expressions -/

variable {setting : Setting σ} {depth : Nat}

theorem reports_readVariable (name : String) :
    Reports (MayPoint source F) W (readVariable name : Action σ Value) := by
  unfold readVariable
  refine (reports_of_ok fun m => ⟨m, m, rfl, rfl⟩).bind fun m => ?_
  split
  · exact reports_pure _
  · exact reports_fail (.inl rfl)

theorem reports_drawSprite (name : String) {span : Span} (hspan : C span) :
    Reports D (PointsTo setting.source C) (drawSprite setting name span) := by
  have hwarn (text : String) : Reports D (PointsTo setting.source C) (warn setting text span) :=
    reports_warn ⟨span, rfl, hspan, rfl⟩
  unfold drawSprite
  split
  · exact hwarn _
  · refine (reports_of_ok fun m => ⟨m, m, rfl, rfl⟩).bind fun m => ?_
    split
    · exact hwarn _
    · exact reports_of_ok fun m => ⟨_, _, rfl, rfl⟩

/-- A call warns at its own place. -/
theorem reports_callFunction (function : String) (arguments : List Value) {span : Span}
    (hspan : C span) : Reports (MayPoint setting.source F) (PointsTo setting.source C)
      (callFunction setting function arguments span) := by
  have hask {γ : Type} (request : σ → Except String γ × σ) :
      Reports (MayPoint setting.source F) (PointsTo setting.source C) (ask request) :=
    reports_ask fun _ => .inl rfl
  unfold callFunction
  dsimp only
  split
  · exact (hask _).bind fun _ => reports_pure _
  · exact (hask _).bind fun _ => reports_pure _
  · exact (hask _).bind fun _ => reports_pure _
  · refine (hask _).bind fun answer => ?_
    split <;> exact reports_pure _
  · exact (reports_warn ⟨span, rfl, hspan, rfl⟩).bind fun _ => reports_pure _
  · exact (reports_drawSprite _ hspan).bind fun _ => reports_pure _
  · exact reports_fail (.inl rfl)

theorem reports_evaluateAll_of {es : List Expr}
    (h : ∀ e ∈ es, Reports D W (evaluate setting e depth)) :
    Reports D W (evaluateAll setting es depth) := by
  induction es with
  | nil =>
    rw [evaluateAll]
    exact reports_pure _
  | cons e es ih =>
    obtain ⟨hfirst, hothers⟩ := List.forall_mem_cons.mp h
    rw [evaluateAll]
    exact hfirst.bind fun _ => (ih hothers).bind fun _ => reports_pure _

variable {ls : List Lexeme} {low high : Nat}

/-- **Expressions**: a fault has a place within the expression, or none yet. -/
theorem reports_evaluate {e : Expr} (h : e.Lies (IsPlace ls) low high)
    (hcalls : ∀ span ∈ e.calls, C span) :
    Reports (MayPoint setting.source (Span.Lies (IsPlace ls) low high))
      (PointsTo setting.source C) (evaluate setting e depth) := by
  -- an expression that is too deep has no place yet; the statement it is in gives it one
  have htooDeep : Reports (MayPoint setting.source (Span.Lies (IsPlace ls) low high))
      (PointsTo setting.source C) (fail .tooDeep : Action σ Value) := reports_fail (.inl rfl)
  induction e using Expr.induction generalizing low high depth with
  | number | text | bool =>
    rw [evaluate]
    split
    · exact htooDeep
    · exact reports_pure _
  | var name span =>
    rw [evaluate]
    split
    · exact htooDeep
    · exact (reports_readVariable name).locate fun d hd => .inr (hd.locate h)
  | call f arguments span ih =>
    rw [Expr.calls, List.forall_mem_cons, Expr.forall_mem_callsAll] at hcalls
    rw [evaluate]
    split
    · exact htooDeep
    · refine (reports_evaluateAll_of fun e he => ?_).bind fun values => ?_
      · exact ih e he ((h.2.forall_mem e he).mono h.1.2.1 h.1.2.2) (hcalls.2 e he)
          (reports_fail (.inl rfl))
      · exact (reports_callFunction f values hcalls.1).locate fun d hd => .inr (hd.locate h.1)
  | unary op e ih =>
    rw [evaluate]
    split
    · exact htooDeep
    · exact (ih h hcalls htooDeep).bind fun _ => reports_pure _
  | binary op l r span ihl ihr =>
    obtain ⟨⟨hplace, hlow, hhigh⟩, mid, hl, hr⟩ := h
    rw [Expr.calls, List.forall_mem_append] at hcalls
    have hmid := hl.le
    have hl := hl.mono hlow (hr.le.trans hhigh)
    have hr := hr.mono (hlow.trans hmid) hhigh
    rw [evaluate]
    split
    · exact htooDeep
    · refine (ihl hl hcalls.1 htooDeep).bind fun value => ?_
      split
      · exact reports_pure _
      · exact reports_pure _
      · exact (ihr hr hcalls.2 htooDeep).bind fun _ => reports_pure _

/-! ### Statements -/

variable {turns : Nat}

theorem reports_checkDepth {span : Span} (hspan : F span) :
    Reports (Settled setting.source F) W (checkDepth setting depth span) := by
  unfold checkDepth
  split
  · exact Reports.settle (reports_fail (.inl rfl)) hspan
  · exact reports_pure ()

theorem reports_assignVariable (name : String) (value : Value) :
    Reports (MayPoint source F) W (assignVariable name value : Action σ Unit) := by
  unfold assignVariable
  refine (reports_of_ok fun m => ⟨m, m, rfl, rfl⟩).bind fun m => ?_
  split
  · exact reports_of_ok fun m => ⟨_, _, rfl, rfl⟩
  · exact reports_fail (.inl rfl)

theorem reports_executeSimple {s : Simple} (h : s.Lies (IsPlace ls) low high)
    (hcalls : ∀ span ∈ s.calls, C span) :
    Reports (Settled setting.source (Span.Lies (IsPlace ls) low high))
      (PointsTo setting.source C) (executeSimple setting s depth) := by
  have hvalue {e : Expr} {span : Span} (hspan : span.Lies (IsPlace ls) low high)
      (he : e.Lies (IsPlace ls) span.start span.stop) (hcalls : ∀ span ∈ e.calls, C span) :
      Reports (MayPoint setting.source (Span.Lies (IsPlace ls) low high))
        (PointsTo setting.source C) (evaluate setting e (depth + 1)) :=
    reports_evaluate (he.mono hspan.2.1 hspan.2.2) hcalls
  unfold executeSimple
  cases s with
  | declare name e span =>
    refine (reports_checkDepth h.1).bind fun _ => Reports.settle ?_ h.1
    exact (hvalue h.1 h.2 hcalls).bind fun v => reports_of_ok fun m => ⟨_, _, rfl, rfl⟩
  | assign name kind e span =>
    refine (reports_checkDepth h.1).bind fun _ => Reports.settle ?_ h.1
    cases kind with
    | replace => exact (hvalue h.1 h.2 hcalls).bind fun v => reports_assignVariable name v
    | add =>
      exact (hvalue h.1 h.2 hcalls).bind fun v => (reports_readVariable name).bind fun _ =>
        reports_assignVariable name _
  | increment name span =>
    refine (reports_checkDepth h).bind fun _ => Reports.settle ?_ h
    exact (reports_readVariable name).bind fun _ => reports_assignVariable name _
  | evaluate e span =>
    refine (reports_checkDepth h.1).bind fun _ => Reports.settle ?_ h.1
    exact (hvalue h.1 h.2 hcalls).bind fun _ => reports_pure _

theorem reports_test {e : Expr} (h : e.Lies (IsPlace ls) low high)
    (hcalls : ∀ span ∈ e.calls, C span) :
    Reports (MayPoint setting.source (Span.Lies (IsPlace ls) low high))
      (PointsTo setting.source C) (test setting e depth) := by
  unfold test
  exact (reports_evaluate h hcalls).bind fun _ => reports_pure _

/-- The statements of a body, each of them by itself. -/
theorem reports_executeAll_of {ss : List Stmt}
    (h : ∀ s ∈ ss, Reports D W (execute setting turns s depth)) :
    Reports D W (executeAll setting turns ss depth) := by
  induction ss with
  | nil =>
    rw [executeAll]
    exact reports_pure _
  | cons s ss ih =>
    obtain ⟨hfirst, hothers⟩ := List.forall_mem_cons.mp h
    rw [executeAll]
    refine hfirst.bind fun flow => ?_
    cases flow with
    | normal => exact ih hothers
    | broke => exact reports_pure _

theorem reports_executeOptional {s : Option Simple}
    (h : LiesOptional (Simple.Lies (IsPlace ls)) low high s)
    (hcalls : ∀ span ∈ s.elim [] Simple.calls, C span) :
    Reports (Settled setting.source (Span.Lies (IsPlace ls) low high))
      (PointsTo setting.source C) (executeOptional setting s depth) := by
  cases s with
  | none => exact reports_pure _
  | some s => exact reports_executeSimple h hcalls

theorem reports_testOptional {e : Option Expr}
    (h : LiesOptional (Expr.Lies (IsPlace ls)) low high e)
    (hcalls : ∀ span ∈ e.elim [] Expr.calls, C span) :
    Reports (MayPoint setting.source (Span.Lies (IsPlace ls) low high))
      (PointsTo setting.source C) (testOptional setting e depth) := by
  cases e with
  | none => exact reports_pure _
  | some e => exact reports_test h hcalls

/-- A body that lies within what is around it. -/
theorem reports_body_of {ss : List Stmt} {low' high' : Nat}
    (h : ∀ s ∈ ss, ∀ {depth low high}, s.Lies (IsPlace ls) low high →
      (∀ span ∈ s.calls, C span) →
      Reports (Settled setting.source (Span.Lies (IsPlace ls) low high))
        (PointsTo setting.source C) (execute setting turns s depth))
    (hall : Stmt.LiesAll (IsPlace ls) low' high' ss) (hlow : low ≤ low') (hhigh : high' ≤ high)
    (hcalls : ∀ span ∈ Stmt.callsAll ss, C span) :
    Reports (Settled setting.source (Span.Lies (IsPlace ls) low high))
      (PointsTo setting.source C) (inScope (executeAll setting turns ss depth)) := by
  rw [Stmt.forall_mem_callsAll] at hcalls
  refine Reports.inScope (reports_executeAll_of fun s hs => ?_)
  exact h s hs ((hall.forall_mem s hs).mono hlow hhigh) (hcalls s hs)

/-- A turn of a `for` loop. Its test may fail without a place, since the loop gives one. -/
theorem reports_forTurn_of {c : Option Expr} {step : Option Simple} {body : List Stmt}
    (hc : LiesOptional (Expr.Lies (IsPlace ls)) low high c)
    (hcallsC : ∀ span ∈ c.elim [] Expr.calls, C span)
    (hstep : LiesOptional (Simple.Lies (IsPlace ls)) low high step)
    (hcallsStep : ∀ span ∈ step.elim [] Simple.calls, C span)
    (hbody : Reports (Settled setting.source (Span.Lies (IsPlace ls) low high))
      (PointsTo setting.source C) (inScope (executeAll setting turns body (depth + 1)))) :
    Reports (MayPoint setting.source (Span.Lies (IsPlace ls) low high))
      (PointsTo setting.source C) (forTurn setting turns c step body depth) := by
  unfold forTurn
  refine (reports_testOptional hc hcallsC).bind fun holds => ?_
  cases holds with
  | true =>
    refine (hbody.mono fun _ hd => hd.mayPoint).bind fun flow => ?_
    cases flow with
    | normal =>
      exact ((reports_executeOptional hstep hcallsStep).mono fun _ hd => hd.mayPoint).bind
        fun _ => reports_pure _
    | broke => exact reports_pure _
  | false => exact reports_pure _

/-- **Statements**: a fault has a place within the statement. -/
theorem reports_execute {s : Stmt} (h : s.Lies (IsPlace ls) low high)
    (hcalls : ∀ span ∈ s.calls, C span) :
    Reports (Settled setting.source (Span.Lies (IsPlace ls) low high))
      (PointsTo setting.source C) (execute setting turns s depth) := by
  induction s using Stmt.induction generalizing low high depth with
  | simple s =>
    rw [execute]
    exact (reports_executeSimple h hcalls).bind fun _ => reports_pure _
  | ifThen c body span ih =>
    obtain ⟨hspan, mid, hc, hbody⟩ := h
    rw [Stmt.calls, List.forall_mem_append] at hcalls
    have hc' := hc.mono hspan.2.1 (hbody.le.trans hspan.2.2)
    rw [execute]
    refine (reports_checkDepth hspan).bind fun _ =>
      (Reports.settle (reports_test hc' hcalls.1) hspan).bind fun holds => ?_
    cases holds with
    | true => exact reports_body_of ih hbody (hspan.2.1.trans hc.le) hspan.2.2 hcalls.2
    | false => exact reports_pure _
  | ifElse c body otherwise span ih ih' =>
    obtain ⟨hspan, mid, mid', hc, hbody, hotherwise⟩ := h
    rw [Stmt.calls, List.forall_mem_append, List.forall_mem_append] at hcalls
    have hc' := hc.mono hspan.2.1 ((hbody.le.trans hotherwise.le).trans hspan.2.2)
    rw [execute]
    refine (reports_checkDepth hspan).bind fun _ =>
      (Reports.settle (reports_test hc' hcalls.1) hspan).bind fun holds => ?_
    cases holds with
    | true =>
      exact reports_body_of ih hbody (hspan.2.1.trans hc.le) (hotherwise.le.trans hspan.2.2)
        hcalls.2.1
    | false =>
      exact reports_body_of ih' hotherwise (hspan.2.1.trans (hc.le.trans hbody.le)) hspan.2.2
        hcalls.2.2
  | while_ c body span ih =>
    obtain ⟨hspan, mid, hc, hbody⟩ := h
    rw [Stmt.calls, List.forall_mem_append] at hcalls
    have hc' := hc.mono hspan.2.1 (hbody.le.trans hspan.2.2)
    rw [execute]
    refine (reports_checkDepth hspan).bind fun _ =>
      Reports.bind (Reports.iterate ?_ (.inl ⟨rfl, rfl⟩) turns) fun _ => reports_pure _
    refine (Reports.settle (reports_test hc' hcalls.1) hspan).bind fun holds => ?_
    cases holds with
    | true =>
      exact (reports_body_of ih hbody (hspan.2.1.trans hc.le) hspan.2.2 hcalls.2).bind fun _ =>
        reports_pure _
    | false => exact reports_pure _
  | for_ first c update body span ih =>
    obtain ⟨hspan, mid, mid', mid'', hfirst, hc, hupdate, hbody⟩ := h
    rw [Stmt.calls, List.forall_mem_append, List.forall_mem_append, List.forall_mem_append]
      at hcalls
    obtain ⟨hcallsFirst, hcallsC, hcallsUpdate, hcallsBody⟩ := hcalls
    rw [execute_for]
    -- the parts of the header lie behind each other, so each lies within the loop
    have hlow := hspan.2.1
    have hlow' := hlow.trans (hfirst.le Simple.Lies.le)
    have hlow'' := hlow'.trans (hc.le Expr.Lies.le)
    have hhigh'' := hbody.le.trans hspan.2.2
    have hhigh' := (hupdate.le Simple.Lies.le).trans hhigh''
    have hhigh := (hc.le Expr.Lies.le).trans hhigh'
    have hfirst' := hfirst.mono (fun h => h.mono hlow hhigh) hlow hhigh
    have hc' := hc.mono (fun h => h.mono hlow' hhigh') hlow' hhigh'
    have hupdate' := hupdate.mono (fun h => h.mono hlow'' hhigh'') hlow'' hhigh''
    have hturn : Reports (MayPoint setting.source (Span.Lies (IsPlace ls) low high))
        (PointsTo setting.source C) (forTurn setting turns c update body depth) :=
      reports_forTurn_of hc' hcallsC hupdate' hcallsUpdate <|
        reports_body_of ih hbody (hlow''.trans (hupdate.le Simple.Lies.le)) hspan.2.2 hcallsBody
    refine (reports_checkDepth hspan).bind fun _ => Reports.bind (Reports.settle ?_ hspan)
      fun _ => reports_pure _
    exact (((reports_executeOptional hfirst' hcallsFirst).mono fun _ hd => hd.mayPoint).bind
      fun _ => hturn.iterate (.inl rfl) turns).inScope
  | break_ span =>
    rw [execute]
    exact (reports_checkDepth h).bind fun _ => reports_pure _
  | block body span ih =>
    obtain ⟨hspan, hbody⟩ := h
    rw [execute]
    refine (reports_checkDepth hspan).bind fun _ => ?_
    exact reports_body_of ih hbody hspan.2.1 hspan.2.2 hcalls

/-! ### Programs -/

/-- The statement at whose execution a program stops: those before it end normally. -/
theorem exists_stopped {ss : List Stmt} {m m' : Machine σ} {d : Diagnostic}
    (h : outcome (executeTop setting turns ss) m = (.error d, m')) :
    ∃ before s after m₁, ss = before ++ s :: after ∧
      outcome (executeTop setting turns before) m = (.ok (), m₁) ∧
      outcome (executeTop setting turns [s]) m₁ = (.error d, m') := by
  induction ss generalizing m with
  | nil => cases h
  | cons s ss ih =>
    rw [executeTop] at h
    rcases hs : outcome (execute setting turns s 0) m with ⟨e | flow, t⟩
    · rw [outcome_bind_error hs] at h
      refine ⟨[], s, ss, m, rfl, rfl, ?_⟩
      rw [executeTop, outcome_bind_error hs, h]
    · rw [outcome_bind_ok hs] at h
      -- a `break` outside a loop is a fault, and is one of the statement itself
      cases flow with
      | normal =>
        obtain ⟨before, s', after, m₁, rfl, hbefore, hs'⟩ := ih h
        refine ⟨s :: before, s', after, m₁, rfl, ?_, hs'⟩
        rw [executeTop, outcome_bind_ok hs]
        exact hbefore
      | broke =>
        refine ⟨[], s, ss, m, rfl, rfl, ?_⟩
        rw [executeTop, outcome_bind_ok hs]
        exact h

/-- **Statements of the outermost level.** A `break` that no loop takes is a fault of the
statement. -/
theorem reports_executeTop {ss : List Stmt} (h : ∀ s ∈ ss, s.Lies (IsPlace ls) low high)
    (hcalls : ∀ span ∈ Stmt.callsAll ss, C span) :
    Reports (Settled setting.source (Span.Lies (IsPlace ls) low high))
      (PointsTo setting.source C) (executeTop setting turns ss) := by
  induction ss with
  | nil =>
    rw [executeTop]
    exact reports_pure ()
  | cons s ss ih =>
    obtain ⟨hfirst, hothers⟩ := List.forall_mem_cons.mp h
    rw [Stmt.callsAll, List.forall_mem_append] at hcalls
    rw [executeTop]
    refine (reports_execute hfirst hcalls.1).bind fun flow => ?_
    cases flow with
    | normal => exact ih hothers hcalls.2
    | broke => exact Reports.settle (reports_fail (.inl rfl)) hfirst.self.2

/-- **Faults and warnings point into the source.** If a run of a parsed program ends with a fault,
then in one of its statements: those before it run to their ends, and with this one the run stops.
The place of the fault is in the source of the program, between characters, and within the
statement. The warnings that the run adds have the places of calls in the program. -/
theorem run_reports {text : String} {source : Nat} {p : Program}
    (hparse : Program.parse text source = .ok p) (world : World σ) (turns : Nat)
    (machine machine' : Machine σ) (result : Except Diagnostic Unit)
    (hrun : run world turns p machine = (result, machine')) :
    (∀ d, result = .error d → d.cause ≠ .outOfTurns →
      ∃ before s after machine₁ span, p.statements = before ++ s :: after ∧
        run world turns ⟨before, source⟩ machine = (.ok (), machine₁) ∧
        run world turns ⟨[s], source⟩ machine₁ = (.error d, machine') ∧
        d.span = some span ∧ d.source = source ∧
        s.span.start ≤ span.start ∧ span.start ≤ span.stop ∧ span.stop ≤ s.span.stop ∧
        span.stop ≤ text.utf8ByteSize ∧
        Text.IsBoundary text span.start ∧ Text.IsBoundary text span.stop) ∧
      ∃ added, machine'.diagnostics = machine.diagnostics ++ added ∧
        ∀ w ∈ added, w.source = source ∧ ∃ span ∈ p.calls, w.span = some span := by
  obtain ⟨ls, hscan, hlies⟩ := Program.lies_of_parse hparse
  obtain rfl := Program.source_of_parse hparse
  have hinside := hlies.forall_mem
  constructor
  · rintro d rfl hcause
    -- the run stops in one statement, and this one alone says where its faults are
    obtain ⟨before, s, after, machine₁, hstatements, hbefore, hstop⟩ := exists_stopped hrun
    have hs : s ∈ p.statements := hstatements ▸ List.mem_append_right _ List.mem_cons_self
    have hself := (hinside s hs).self.1
    have hreports : Reports (Settled p.source (Span.Lies (IsPlace ls) s.span.start s.span.stop))
        (PointsTo p.source fun _ => True) (executeTop ⟨world, p.source⟩ turns [s]) :=
      reports_executeTop (List.forall_mem_singleton.mpr hself) fun _ _ => trivial
    obtain ⟨hfault, -⟩ := hreports machine₁ _ machine' hstop
    obtain ⟨hturns, -⟩ | ⟨span, hspan, ⟨hplace, hstart, hend⟩, hsource⟩ := hfault d rfl
    · exact absurd hturns hcause
    · have hboundaries := hplace.boundaries hscan
      exact ⟨before, s, after, machine₁, span, hstatements, hbefore, hstop, hspan, hsource, hstart,
        hplace.lt.le, hend, hboundaries.2.le, hboundaries⟩
  · have hreports : Reports (Settled p.source (Span.Lies (IsPlace ls) 0 text.utf8ByteSize))
        (PointsTo p.source (· ∈ p.calls)) (executeTop ⟨world, p.source⟩ turns p.statements) :=
      reports_executeTop hinside fun _ h => h
    obtain ⟨-, added, hadded, hw⟩ := hreports machine result machine' hrun
    refine ⟨added, hadded, fun w hmem => ?_⟩
    obtain ⟨span, hspan, hcall, hsource⟩ := hw w hmem
    exact ⟨hsource, span, hcall, hspan⟩

/-- A warning, and then a name that is not there. -/
theorem run_reports_undefined : ∃ p d machine,
    Program.parse "warn(\"a\"); print(x);" 7 = .ok p ∧
    run ⟨Recording.host, [], 0⟩ 1 p (.start (.start none [] [])) = (.error d, machine) ∧
    d.cause = .undefinedVariable "x" ∧ d.source = 7 ∧
    (∃ s ∈ p.statements, ∃ span, d.span = some span ∧
      s.span.start ≤ span.start ∧ span.stop ≤ s.span.stop) ∧
    ∃ w ∈ machine.diagnostics, w.source = 7 ∧ ∃ span ∈ p.calls, w.span = some span := by
  have hread : (Program.parse "warn(\"a\"); print(x);" 7).toOption.any (fun p =>
      let (result, machine) := run ⟨Recording.host, [], 0⟩ 1 p (.start (.start none [] []))
      match result with
      | .error d => decide (d.cause = .undefinedVariable "x" ∧ 0 < machine.diagnostics.size)
      | .ok _ => false) = true := by
    decide +kernel
  obtain ⟨p, hp, hstops⟩ := exists_of_any hread
  rcases hrun : run ⟨Recording.host, [], 0⟩ 1 p (.start (.start none [] [])) with ⟨d | _, machine⟩
  · rw [hrun] at hstops
    obtain ⟨hcause, hwarned⟩ := of_decide_eq_true hstops
    obtain ⟨hfault, added, hadded, hw⟩ := run_reports hp _ _ _ _ _ hrun
    obtain ⟨before, s, after, _, span, hstatements, -, -, hspan, hsource, hstart, -, hstop, -⟩ :=
      hfault d rfl (by rw [hcause]; nofun)
    have hs : s ∈ p.statements := hstatements ▸ List.mem_append_right _ List.mem_cons_self
    have hadded : machine.diagnostics = added := hadded.trans Array.empty_append
    obtain ⟨w, hmem⟩ : ∃ w, w ∈ machine.diagnostics := ⟨_, Array.getElem_mem hwarned⟩
    exact ⟨p, d, machine, hp, hrun, hcause, hsource, ⟨s, hs, span, hspan, hstart, hstop⟩, w, hmem,
      hw w (hadded ▸ hmem)⟩
  · rw [hrun] at hstops
    cases hstops

end Run

end Blockwork
