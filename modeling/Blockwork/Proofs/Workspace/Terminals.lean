import Mathlib
import Blockwork.Proofs.Run.Lockstep
import Blockwork.Run.Terminal
import Blockwork.Workspace.Report

/-!
# Terminals and recordings

A terminal that is not interactive gives the answers of a recording that has none left, so a program
cannot tell the two apart. They keep the same things in different forms: the lines that have been
printed, and the sprites. A quiet terminal leaves out the lines.

Each of the two comparisons is a relation between states that the hosts keep (`Terminal.Shows`,
`Terminal.Silences`), and with that all programs run alike, since nothing but a host is asked.

## Main result

* `terminals_agree`: a workspace, and any program, runs alike on a terminal, on a quiet terminal and
  on a recording.
-/

namespace Blockwork

namespace Run

/-! ### Hosts without answers -/

/-- The reply of a host that has no answer to give. -/
def HostCall.declined : HostCall → Reply
  | .confirm _ => .choice false
  | .prompt _ => .answer none
  | _ => .done

/-- The line that a terminal without answers shows for a request, besides printed lines. -/
def HostCall.shownLine? : HostCall → Option String
  | .print _ | .clearCanvas => none
  | .alert text => some s!"[alert] {text}\n"
  | .confirm text => some (s!"[confirm] {text} -> no" ++ "\n")
  | .prompt text => some (s!"[prompt] {text} -> cancelled" ++ "\n")
  | .warn text => some s!"[warn] {text}\n"
  | .draw sprite => some (Terminal.drawLine sprite ++ "\n")

/-- The sprites on the canvas after a request. -/
def HostCall.drawn (draws : Array Draw) : HostCall → Array Draw
  | .draw sprite => draws.push sprite
  | .clearCanvas => #[]
  | _ => draws

/-- Not interactive, with outputs that take whatever is written. -/
structure Terminal.Plain (t : Terminal) : Prop where
  interactive : t.interactive = false
  out_limit : t.out.limit = none
  err_limit : t.err.limit = none

/-- The terminal after a request. -/
def Terminal.served (t : Terminal) (call : HostCall) : Terminal :=
  { t with
    out := match call with
      | .print text => if t.quiet then t.out else ⟨none, (text ++ "\n") :: t.out.pieces⟩
      | _ => t.out
    err := match call.shownLine? with
      | some line => ⟨none, line :: t.err.pieces⟩
      | none => t.err
    draws := call.drawn t.draws }

/-- The recording after a request. -/
def Recording.served (r : Recording) (call : HostCall) : Recording :=
  { r with
    output := match call with
      | .print text => r.output.push text
      | _ => r.output
    alerts := match call with
      | .alert text => r.alerts.push text
      | _ => r.alerts
    warnings := match call with
      | .warn text => r.warnings.push text
      | _ => r.warnings
    draws := call.drawn r.draws }

/-- Writing to an output without a limit. -/
theorem Sink.write_of_limit {s : Sink} (h : s.limit = none) (piece : String) :
    s.write piece = (.ok (), ⟨none, piece :: s.pieces⟩) := by
  unfold write
  dsimp only
  rw [h]

namespace Terminal

variable {t : Terminal}

/-- What a terminal without answers does. -/
theorem Plain.serve (h : t.Plain) (call : HostCall) :
    host.serve call t = (call.declined, t.served call) := by
  have herr (piece : String) : t.writeErr piece
      = (.ok (), { t with err := ⟨none, piece :: t.err.pieces⟩ }) := by
    unfold writeErr
    rw [Sink.write_of_limit h.err_limit]
  have hout (piece : String) : t.writeOut piece
      = (.ok (), { t with out := ⟨none, piece :: t.out.pieces⟩ }) := by
    unfold writeOut
    rw [Sink.write_of_limit h.out_limit]
  cases call with
  | print text =>
    dsimp only [Host.serve, host, served, HostCall.shownLine?, HostCall.drawn]
    split
    · rfl
    · rw [hout]
      rfl
  | alert | warn | draw =>
    dsimp only [Host.serve, host]
    rw [herr]
    rfl
  -- the input is not read, so there is no difference between the questions
  | confirm | prompt =>
    dsimp only [Host.serve, host]
    rw [if_neg (by rw [h.interactive]; exact Bool.false_ne_true)]
    dsimp only [decline]
    rw [herr]
    rfl
  | clearCanvas => rfl

theorem Plain.served (h : t.Plain) (call : HostCall) : (t.served call).Plain where
  interactive := h.interactive
  out_limit := by
    cases call with
    | print text =>
      dsimp only [Terminal.served]
      split
      · exact h.out_limit
      · rfl
    | _ => exact h.out_limit
  err_limit := by
    cases call with
    | print | clearCanvas => exact h.err_limit
    | _ => rfl

end Terminal

/-- What a recording without answers does. -/
theorem Recording.serve_eq {r : Recording} (hconfirm : r.confirmAnswers = [])
    (hprompt : r.promptAnswers = []) (call : HostCall) :
    host.serve call r = (call.declined, r.served call) := by
  obtain ⟨output, alerts, warnings, draws, canvas, confirmAnswers, promptAnswers⟩ := r
  obtain rfl : confirmAnswers = [] := hconfirm
  obtain rfl : promptAnswers = [] := hprompt
  cases call <;> rfl

/-! ### What a terminal shows of a recording -/

/-- The lines that have been printed, each with its end. -/
def Recording.printed (r : Recording) : String :=
  String.join (r.output.toList.map (· ++ "\n"))

/-- **The terminal shows what is recorded.** Neither of the two has answers to give. -/
structure Terminal.Shows (t : Terminal) (r : Recording) : Prop where
  plain : t.Plain
  quiet : t.quiet = false
  canvas : t.canvas = r.canvas
  draws : t.draws = r.draws
  pieces : t.out.pieces.reverse = r.output.toList.map (· ++ "\n")
  confirmAnswers : r.confirmAnswers = []
  promptAnswers : r.promptAnswers = []

theorem Terminal.Shows.served {t : Terminal} {r : Recording} (h : t.Shows r) (call : HostCall) :
    (t.served call).Shows (r.served call) where
  plain := h.plain.served call
  quiet := h.quiet
  canvas := h.canvas
  draws := congrArg (call.drawn ·) h.draws
  pieces := by
    cases call with
    | print text =>
      dsimp only [Terminal.served, Recording.served]
      rw [if_neg (by rw [h.quiet]; exact Bool.false_ne_true), List.reverse_cons, h.pieces,
        Array.toList_push, List.map_append, List.map_singleton]
    | _ => exact h.pieces
  confirmAnswers := h.confirmAnswers
  promptAnswers := h.promptAnswers

/-- **A terminal and a recording cannot be told apart.** -/
theorem Terminal.alike_recording : Host.Alike Terminal.Shows Terminal.host Recording.host where
  canvas h := h.canvas
  reply call h := by
    rw [h.plain.serve, Recording.serve_eq h.confirmAnswers h.promptAnswers]
  next call h := by
    rw [h.plain.serve, Recording.serve_eq h.confirmAnswers h.promptAnswers]
    exact h.served call

/-! ### Quiet terminals -/

/-- The terminal as it were if it had been quiet all the time. -/
def Terminal.silenced (t : Terminal) : Terminal :=
  { t with quiet := true, out := .unlimited }

/-- **The second terminal is the first one made quiet.** -/
structure Terminal.Silences (t q : Terminal) : Prop where
  plain : t.Plain
  quiet : t.quiet = false
  eq_silenced : q = t.silenced

theorem Terminal.Plain.silenced {t : Terminal} (h : t.Plain) : t.silenced.Plain where
  interactive := h.interactive
  out_limit := rfl
  err_limit := h.err_limit

theorem Terminal.silenced_served (t : Terminal) (call : HostCall) :
    t.silenced.served call = (t.served call).silenced := by
  cases call <;> rfl

/-- **A quiet terminal cannot be told from another one.** -/
theorem Terminal.alike_silenced : Host.Alike Terminal.Silences Terminal.host Terminal.host where
  canvas h := by
    rw [h.eq_silenced]
    rfl
  reply call h := by
    rw [h.eq_silenced, h.plain.serve, h.plain.silenced.serve]
  next call h := by
    rw [h.eq_silenced, h.plain.serve, h.plain.silenced.serve, silenced_served]
    exact ⟨h.plain.served call, h.quiet, rfl⟩

/-! ### Beginnings -/

theorem Terminal.shows_start (input : List UInt8) (canvas : Option Canvas) :
    (start input canvas).Shows (.start canvas [] []) where
  plain := ⟨rfl, rfl, rfl⟩
  quiet := rfl
  canvas := rfl
  draws := rfl
  pieces := rfl
  confirmAnswers := rfl
  promptAnswers := rfl

theorem Terminal.silences_start (input : List UInt8) (canvas : Option Canvas) :
    (start input canvas).Silences { start input canvas with quiet := true } :=
  ⟨⟨rfl, rfl, rfl⟩, rfl, rfl⟩

/-- **What is on a terminal**, if these are the same run on a quiet one and on a recording: the
sprites of the recording, its lines, and all that is on the quiet terminal. -/
structure Terminal.Agrees (t q : Terminal) (r : Recording) : Prop where
  draws : t.draws = r.draws
  text : t.out.text = r.printed
  eq_silenced : q = t.silenced

theorem Terminal.Shows.agrees {t q : Terminal} {r : Recording} (h : t.Shows r)
    (hq : t.Silences q) : t.Agrees q r where
  draws := h.draws
  text := congrArg String.join h.pieces
  eq_silenced := hq.eq_silenced

end Run

/-! ### Workspaces -/

open Run

variable {σ τ : Type} {H : σ → τ → Prop} {host : Host σ} {host' : Host τ}

/-- A workspace runs alike on hosts that are alike. -/
theorem Run.Host.Alike.workspace (h : Host.Alike H host host') (ws : Workspace) (seed : UInt64)
    {s : σ} {s' : τ} (hs : H s s') :
    ∃ report t t', ws.run host seed s = (report, t) ∧ ws.run host' seed s' = (report, t') ∧
      H t t' := by
  have hclear : (Machine.start (host.clearCanvas s)).Matches H
      (Machine.start (host'.clearCanvas s')) := ⟨rfl, rfl, rfl, h.next .clearCanvas hs⟩
  unfold Workspace.run runBlocks
  dsimp only
  -- the canvas has been cleared by now, also if the program cannot be read
  cases Script.Program.parse (compileRoots ws.registry ws.blocks).executable compiledSource with
  | error faults => exact ⟨_, _, _, rfl, rfl, hclear.host⟩
  | ok p =>
    obtain ⟨r, n, n', hn, hn', hmatches⟩ := h.run ws.assets seed guardedTurns p hclear
    dsimp only
    rw [hn, hn', hmatches.eq_with]
    cases r with
    | error d => exact ⟨_, _, _, rfl, rfl, hmatches.host⟩
    | ok a => exact ⟨_, _, _, rfl, rfl, hmatches.host⟩

/-- **Terminals and recordings agree.** A workspace gives the same report on a terminal that is not
interactive, on the same terminal when it is quiet, and on a recording without answers. The sprites
are the same, and what is printed on the terminal are the recorded lines; all that a quiet terminal
lacks is what is printed. The same holds of any program, from any variables, and these are the same
again in the end. -/
theorem terminals_agree (input : List UInt8) (canvas : Option Canvas) :
    (∀ (ws : Workspace) (seed : UInt64), ∃ report t q r,
      ws.run Terminal.host seed (.start input canvas) = (report, t) ∧
      ws.run Terminal.host seed { Terminal.start input canvas with quiet := true } = (report, q) ∧
      ws.run Recording.host seed (.start canvas [] []) = (report, r) ∧ t.Agrees q r) ∧
    ∀ (p : Script.Program) (assets : AssetStore) (seed : UInt64) (turns : Nat) (env : Environment)
      (diagnostics : Array Diagnostic) (drawn : Nat), ∃ result env' diagnostics' drawn' t q r,
      Run.run ⟨Terminal.host, assets, seed⟩ turns p ⟨env, .start input canvas, diagnostics, drawn⟩
        = (result, ⟨env', t, diagnostics', drawn'⟩) ∧
      Run.run ⟨Terminal.host, assets, seed⟩ turns p
          ⟨env, { Terminal.start input canvas with quiet := true }, diagnostics, drawn⟩
        = (result, ⟨env', q, diagnostics', drawn'⟩) ∧
      Run.run ⟨Recording.host, assets, seed⟩ turns p
          ⟨env, .start canvas [] [], diagnostics, drawn⟩
        = (result, ⟨env', r, diagnostics', drawn'⟩) ∧ t.Agrees q r := by
  have hshows := Terminal.shows_start input canvas
  have hsilences := Terminal.silences_start input canvas
  refine ⟨fun ws seed => ?_, fun p assets seed turns env diagnostics drawn => ?_⟩
  -- both comparisons are with one run on the terminal, so their reports are the same
  · obtain ⟨report, t, r, ht, hr, hagree⟩ := Terminal.alike_recording.workspace ws seed hshows
    obtain ⟨report', t', q, ht', hq, hquiet⟩ := Terminal.alike_silenced.workspace ws seed hsilences
    obtain ⟨rfl, rfl⟩ : report = report' ∧ t = t' := Prod.mk.inj (ht.symm.trans ht')
    exact ⟨report, t, q, r, ht, hq, hr, hagree.agrees hquiet⟩
  · have hmatches : Machine.Matches Terminal.Shows ⟨env, .start input canvas, diagnostics, drawn⟩
        ⟨env, .start canvas [] [], diagnostics, drawn⟩ := ⟨rfl, rfl, rfl, hshows⟩
    have hquiets : Machine.Matches Terminal.Silences ⟨env, .start input canvas, diagnostics, drawn⟩
        ⟨env, { Terminal.start input canvas with quiet := true }, diagnostics, drawn⟩ :=
      ⟨rfl, rfl, rfl, hsilences⟩
    obtain ⟨result, m, mr, hm, hmr, hagree⟩ :=
      Terminal.alike_recording.run assets seed turns p hmatches
    obtain ⟨result', m', mq, hm', hmq, hquiet⟩ :=
      Terminal.alike_silenced.run assets seed turns p hquiets
    obtain ⟨rfl, rfl⟩ : result = result' ∧ m = m' := Prod.mk.inj (hm.symm.trans hm')
    rw [hagree.eq_with] at hmr
    rw [hquiet.eq_with] at hmq
    exact ⟨result, m.env, m.diagnostics, m.drawn, m.host, mq.host, mr.host, hm, hmq, hmr,
      hagree.host.agrees hquiet.host⟩

end Blockwork
