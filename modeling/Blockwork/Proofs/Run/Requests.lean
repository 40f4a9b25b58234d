import Mathlib
import Blockwork.Proofs.Run.Acting

/-!
# What a run asks of its host

A host is a collection of operations, each with answers of its own type. Here a request is a value
(`HostCall`), and so is the reply to it (`Reply`), so that hosts can be compared by what they reply
to a list of requests (`Host.serve`, `Host.after`), and a host can keep a record of what it is asked
(`Host.noting`).

## Main result

* `outcome_callFunction`: a call of a function makes one request at most, which depends only on the
  canvas and the number of sprites, and the reply to it decides how the call ends.
-/

namespace Blockwork.Run

open Script Blockwork.Run.Action

variable {σ μ : Type}

/-! ### Requests and replies -/

/-- A request to a host that has an effect. -/
inductive HostCall where
  | print (text : String)
  | alert (text : String)
  | confirm (text : String)
  | prompt (text : String)
  | warn (text : String)
  | draw (sprite : Draw)
  | clearCanvas
deriving DecidableEq

/-- What a host replies to a request. -/
inductive Reply where
  | done
  | choice (yes : Bool)
  | answer (text : Option String)
  | failed (text : String)
deriving DecidableEq

/-- The reply of an operation that may fail. -/
def Reply.ofResult {α : Type} (reply : α → Reply) : Except String α → Reply
  | .ok a => reply a
  | .error text => .failed text

namespace Host

/-- What the host replies to a request, and its state afterwards. -/
def serve (host : Host σ) : HostCall → σ → Reply × σ
  | .print text, s => (host.print text s).map (.ofResult fun _ => .done) id
  | .alert text, s => (host.alert text s).map (.ofResult fun _ => .done) id
  | .confirm text, s => (host.confirm text s).map (.ofResult .choice) id
  | .prompt text, s => (host.prompt text s).map (.ofResult .answer) id
  | .warn text, s => (.done, host.warn text s)
  | .draw sprite, s => (.done, host.draw sprite s)
  | .clearCanvas, s => (.done, host.clearCanvas s)

/-- The state of the host after these requests. -/
def after (host : Host σ) (calls : List HostCall) (s : σ) : σ :=
  calls.foldl (fun s call => (host.serve call s).2) s

/-- A host that does the same and keeps a note of each request. -/
def noting (note : HostCall → μ) (host : Host σ) : Host (σ × List μ) where
  print text s := ((host.print text s.1).1, (host.print text s.1).2, s.2 ++ [note (.print text)])
  alert text s := ((host.alert text s.1).1, (host.alert text s.1).2, s.2 ++ [note (.alert text)])
  confirm text s :=
    ((host.confirm text s.1).1, (host.confirm text s.1).2, s.2 ++ [note (.confirm text)])
  prompt text s :=
    ((host.prompt text s.1).1, (host.prompt text s.1).2, s.2 ++ [note (.prompt text)])
  warn text s := (host.warn text s.1, s.2 ++ [note (.warn text)])
  canvas s := host.canvas s.1
  draw sprite s := (host.draw sprite s.1, s.2 ++ [note (.draw sprite)])
  clearCanvas s := (host.clearCanvas s.1, s.2 ++ [note .clearCanvas])

theorem serve_noting (note : HostCall → μ) (host : Host σ) (call : HostCall) (s : σ × List μ) :
    (host.noting note).serve call s
      = ((host.serve call s.1).1, (host.serve call s.1).2, s.2 ++ [note call]) := by
  cases call <;> rfl

theorem after_append (host : Host σ) (calls others : List HostCall) (s : σ) :
    host.after (calls ++ others) s = host.after others (host.after calls s) :=
  List.foldl_append

end Host

/-! ### Calls of functions -/

/-- The request to draw a sprite, or the warning that there is in its place. -/
def spriteRequest (assets : AssetStore) (seed : UInt64) (canvas : Option Canvas) (drawn : Nat)
    (name : String) : HostCall :=
  if (assets.get? name).isNone then .warn s!"Costume not found: {name}"
  else match canvas with
    | none => .warn "Canvas not found! Cannot draw sprite."
    | some canvas =>
      let (x, y) := spritePlace seed canvas drawn
      .draw ⟨name, x, y, spriteSize, spriteSize⟩

/-- The request that a call of a function makes. There is none if no function has this name. -/
def requestOf (assets : AssetStore) (seed : UInt64) (canvas : Option Canvas) (drawn : Nat)
    (function : String) (arguments : List Value) : Option HostCall :=
  let first := (arguments.headD .undefined).display
  match function with
  | "print" => some (.print (joinValues arguments))
  | "alert" => some (.alert first)
  | "confirm" => some (.confirm first)
  | "prompt" => some (.prompt first)
  | "warn" => some (.warn (joinValues arguments))
  | "draw_sprite" => some (spriteRequest assets seed canvas drawn first)
  | _ => none

/-- Whether the canvas may have decided that this is requested: drawing is, and so is the warning in
its place. -/
def HostCall.regardsCanvas : HostCall → Bool
  | .warn _ | .draw _ => true
  | _ => false

/-- The canvas does not count for a request that fails: warnings and sprites never do. -/
theorem HostCall.regardsCanvas_of_failed {host : Host σ} {call : HostCall} {s : σ} {text : String}
    (h : (host.serve call s).1 = .failed text) : call.regardsCanvas = false := by
  cases call with
  | warn | draw => cases h
  | _ => rfl

theorem regardsCanvas_spriteRequest (assets : AssetStore) (seed : UInt64) (canvas : Option Canvas)
    (drawn : Nat) (name : String) :
    (spriteRequest assets seed canvas drawn name).regardsCanvas = true := by
  unfold spriteRequest
  split
  · rfl
  · cases canvas <;> rfl

/-- A call makes the same request on another canvas that is the same wherever this counts. -/
theorem requestOf_congr {assets : AssetStore} {seed : UInt64} {canvas canvas' : Option Canvas}
    {drawn : Nat} {function : String} {arguments : List Value}
    (h : ∀ call, requestOf assets seed canvas drawn function arguments = some call →
      call.regardsCanvas = true → canvas = canvas') :
    requestOf assets seed canvas' drawn function arguments
      = requestOf assets seed canvas drawn function arguments := by
  unfold requestOf at h ⊢
  split at h
  case h_6 =>
    rw [h _ rfl (regardsCanvas_spriteRequest assets seed canvas drawn _)]
  all_goals rfl

/-- The value of a call that gets this reply. -/
def Reply.value : Reply → Except Diagnostic Value
  | .done => .ok .undefined
  | .choice yes => .ok (.bool yes)
  | .answer (some text) => .ok (.text text)
  | .answer none => .ok .undefined
  | .failed text => .error (.ofCause (.hostFailure text))

/-- The machine after a request that has left the host in this state. A warning is also one of the
machine, and a sprite is counted by it. -/
def Machine.asked (m : Machine σ) (call : HostCall) (span : Span) (source : Nat) (host : σ) :
    Machine σ :=
  match call with
  | .warn text =>
    { m with host, diagnostics := m.diagnostics.push ⟨.custom text, some span, source, true⟩ }
  | .draw _ => { m with host, drawn := m.drawn + 1 }
  | _ => { m with host }

@[simp] theorem Machine.env_asked (m : Machine σ) (call : HostCall) (span : Span) (source : Nat)
    (host : σ) : (m.asked call span source host).env = m.env := by
  cases call <;> rfl

@[simp] theorem Machine.host_asked (m : Machine σ) (call : HostCall) (span : Span) (source : Nat)
    (host : σ) : (m.asked call span source host).host = host := by
  cases call <;> rfl

theorem Machine.diagnostics_asked (m : Machine σ) {call : HostCall}
    (h : call.regardsCanvas = false) (span : Span) (source : Nat) (host : σ) :
    (m.asked call span source host).diagnostics = m.diagnostics := by
  cases call with
  | warn | draw => cases h
  | _ => rfl

/-- Asking, and going on with the value of the reply. -/
theorem outcome_ask_bind {α : Type} {request : σ → Except String α × σ} {next : α → Action σ Value}
    (reply : α → Reply) (hnext : ∀ a m, outcome (next a) m = ((reply a).value, m))
    (m : Machine σ) :
    outcome (ask request >>= next) m
      = ((Reply.ofResult reply (request m.host).1).value,
          { m with host := (request m.host).2 }) := by
  rw [outcome_bind, outcome_ask]
  rcases request m.host with ⟨text | a, s⟩
  · rfl
  · exact hnext a _

/-- Drawing a sprite is one request. It never fails. -/
theorem outcome_drawSprite (setting : Setting σ) (name : String) (span : Span) (m : Machine σ) :
    let call := spriteRequest setting.assets setting.seed (setting.host.canvas m.host) m.drawn name
    outcome (drawSprite setting name span) m
      = (.ok (), m.asked call span setting.source (setting.host.serve call m.host).2) := by
  unfold drawSprite spriteRequest
  split
  · rfl
  · rw [outcome_bind_ok (outcome_get m)]
    cases setting.host.canvas m.host <;> rfl

theorem requestOf_eq_none {assets : AssetStore} {seed : UInt64} {canvas : Option Canvas}
    {drawn : Nat} {function : String} {arguments : List Value} (hprint : function ≠ "print")
    (halert : function ≠ "alert") (hconfirm : function ≠ "confirm") (hprompt : function ≠ "prompt")
    (hwarn : function ≠ "warn") (hdraw : function ≠ "draw_sprite") :
    requestOf assets seed canvas drawn function arguments = none := by
  unfold requestOf
  split <;> first | rfl | contradiction

/-- **A call of a function** is one request to the host, and ends as the host replies. -/
theorem outcome_callFunction (setting : Setting σ) (function : String) (arguments : List Value)
    (span : Span) (m : Machine σ) :
    outcome (callFunction setting function arguments span) m =
      match requestOf setting.assets setting.seed (setting.host.canvas m.host) m.drawn function
          arguments with
      | none => (.error (.ofCause (.undefinedFunction function)), m)
      | some call =>
        ((setting.host.serve call m.host).1.value,
          m.asked call span setting.source (setting.host.serve call m.host).2) := by
  unfold callFunction
  split
  · exact outcome_ask_bind (fun _ => .done) (fun _ _ => rfl) m
  · exact outcome_ask_bind (fun _ => .done) (fun _ _ => rfl) m
  · exact outcome_ask_bind .choice (fun _ _ => rfl) m
  · refine outcome_ask_bind .answer (fun answer _ => ?_) m
    cases answer <;> rfl
  · rfl
  · rw [outcome_bind_ok (outcome_drawSprite setting _ span m)]
    dsimp only [requestOf]
    unfold spriteRequest
    split
    · rfl
    · split <;> rfl
  · next hprint halert hconfirm hprompt hwarn hdraw =>
    rw [requestOf_eq_none hprint halert hconfirm hprompt hwarn hdraw]
    rfl

end Blockwork.Run
