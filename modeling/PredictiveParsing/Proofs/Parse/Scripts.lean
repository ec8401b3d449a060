import PredictiveParsing.Proofs.Parse.Marking
import PredictiveParsing.Script.Parse

/-!
# Scripts as programs

An operation of a script is a program of parser operations: it does the same, and only reports
behind it how it finished. So whatever holds of the runs of all programs holds of scripts.

* `ParseOp.program`, `ParseScript.program`: the program of an operation.
* `ParseScript.perform_reportsAs`, `ParseScript.steps_reportAs`: operations, one by one and in a
  list, end as their programs do, leave the same states and report the same events.
-/

namespace PredictiveParsing

open PredictiveParsing.Action

variable {α : Type}

/-- A program of which the value does not count. -/
def ParseProgram.discard (program : ParseProgram α) : ParseProgram Unit :=
  .bind program fun _ => .done (.ok ())

namespace ParseOp

/-! ## Programs of operations -/

mutual

/-- An operation as a program, given the programs of the rules that can be called. -/
def program (called : String → ParseProgram Unit) : ParseOp → ParseProgram Unit
  | .consume kind => (ParseProgram.consume kind).discard
  | .expectEnd => .expectEnd
  | .alternatives lookahead => (ParseProgram.alternatives lookahead).discard
  | .check lookahead => (ParseProgram.check lookahead).discard
  | .rule name body => .rule name (programAll called body)
  | .call name => .rule name (called name)
  | .optional lookahead body => (ParseProgram.optional lookahead (programAll called body)).discard
  | .many lookahead body => (ParseProgram.many lookahead (programAll called body)).discard
  | .switch lookahead branches =>
    .bind (.alternatives lookahead) fun branch => programBranch called branch branches
  | .attempt body => (ParseProgram.attempt (programAll called body)).discard
  | .begin text => .begin text
  | .run text body => (ParseProgram.run text (programAll called body)).discard
  | .tryMatch kind => (ParseProgram.tryMatch kind).discard
  | .skip => ParseProgram.skip.discard
  | .seek offset => .seek offset
  | .remaining => .done (.ok ())

/-- A list of operations as a program. -/
def programAll (called : String → ParseProgram Unit) : List ParseOp → ParseProgram Unit
  | [] => .done (.ok ())
  | op :: rest => .bind (program called op) fun _ => programAll called rest

/-- The operations of one branch as a program. -/
def programBranch (called : String → ParseProgram Unit) :
    Nat → List (List ParseOp) → ParseProgram Unit
  | _, [] => .done (.ok ())
  | 0, body :: _ => programAll called body
  | n + 1, _ :: rest => programBranch called n rest

end

/-! ## Reports make no difference -/

section reports

variable {x : ScriptAction α} {y : ParseAction Deed α}

theorem finish_reportsAs (report : OpReport) :
    ReportsAs (finish report) (pure () : ParseAction Deed Unit) :=
  fun _ => ⟨rfl, rfl, rfl⟩

/-- An operation of which the result is reported. -/
theorem finishing (h : ReportsAs x y) (report : α → OpReport) :
    ReportsAs (x >>= fun a => finish (report a)) (y >>= fun _ => pure ()) :=
  .bind h fun a => finish_reportsAs (report a)

theorem reporting_reportsAs (h : ReportsAs x y) (report : Except ParseError α → OpReport) :
    ReportsAs (reporting report x) y := by
  refine h.marked_left fun s => ?_
  rw [reporting, bind_apply, Action.attempt]
  cases hx : (x s).exit with
  | ok a => exact ⟨[_], rfl⟩
  | error e => exact ⟨[_], rfl⟩
  | fault f =>
    refine ⟨[], ?_⟩
    rw [List.map_nil, List.append_nil]

theorem holding_reportsAs (h : ReportsAs x y) (report : Option α → OpReport) :
    ReportsAs (holding report x) (y >>= fun _ => pure ()) :=
  .bind (reporting_reportsAs h _) fun _ => .pure ()

end reports

/-- The rules that can be called end as their programs do and report the same events. -/
def CallsAlike (parser : Parser) (called : String → ScriptAction Unit)
    (programs : String → ParseProgram Unit) : Prop :=
  ∀ name, ReportsAs (called name) ((programs name).perform parser)

variable {parser : Parser} {called : String → ScriptAction Unit}
  {programs : String → ParseProgram Unit}

mutual

/-- An operation ends as its program does and reports the same events, if the rules that can be
called do. -/
theorem perform_reportsAs (h : CallsAlike parser called programs) : ∀ op : ParseOp,
    ReportsAs (op.perform parser called) ((op.program programs).perform parser)
  | .consume kind =>
    .bind (reporting_reportsAs ((Alike.consume parser kind).noting _) _) fun _ => .pure ()
  | .expectEnd => reporting_reportsAs ((Alike.expectEnd parser).noting _) _
  | .alternatives lookahead =>
    .bind (reporting_reportsAs ((Alike.alternatives parser lookahead).noting _) _) fun _ => .pure ()
  | .check lookahead => finishing (.check parser lookahead) _
  | .rule name body => by
    have hrule := holding_reportsAs ((performAll_reportsAs h body).perform_rule parser name) .rule
    rwa [bind_pure] at hrule
  | .call name => by
    have hrule := holding_reportsAs ((h name).perform_rule parser name) .call
    rwa [bind_pure] at hrule
  | .optional lookahead body => by
    have hbody := (performAll_reportsAs h body).optional parser lookahead
    have hoptional := holding_reportsAs (hbody.bind fun entered => .pure entered.isSome) .optional
    rwa [bind_assoc] at hoptional
  | .many lookahead body => by
    have hbody := (performAll_reportsAs h body).rounds parser lookahead (offsetLimit + 1)
    have hmany := holding_reportsAs (hbody.bind fun items => .pure items.length) .many
    rwa [bind_assoc] at hmany
  | .switch lookahead branches =>
    .bind (reporting_reportsAs ((Alike.alternatives parser lookahead).noting _) _) fun branch =>
      performBranch_reportsAs h branch branches
  | .attempt body => finishing (performAll_reportsAs h body).attempt _
  | .begin text => by
    have hbegin := finishing (Alike.perform_begin parser text) fun _ => .begin
    rwa [bind_pure] at hbegin
  | .run text body =>
    .bind ((performAll_reportsAs h body).perform_run parser text) fun _ _ => ⟨rfl, rfl, rfl⟩
  | .tryMatch kind => finishing (.scan _) _
  | .skip => finishing (.scan _) _
  | .seek offset => by
    have hscan : ReportsAs (Parser.scan (Store.seek offset) : ScriptAction Unit)
        ((ParseProgram.seek offset).perform parser) := .scan _
    have hseek := finishing hscan fun _ => .seek
    rwa [bind_pure] at hseek
  | .remaining => fun _ => ⟨rfl, rfl, rfl⟩

theorem performAll_reportsAs (h : CallsAlike parser called programs) : ∀ ops : List ParseOp,
    ReportsAs (performAll parser called ops) ((programAll programs ops).perform parser)
  | [] => .pure ()
  | op :: rest => .bind (perform_reportsAs h op) fun _ => performAll_reportsAs h rest

theorem performBranch_reportsAs (h : CallsAlike parser called programs) :
    ∀ (n : Nat) (branches : List (List ParseOp)),
      ReportsAs (performBranch parser called n branches)
        ((programBranch programs n branches).perform parser)
  | _, [] => .pure ()
  | 0, body :: _ => performAll_reportsAs h body
  | n + 1, _ :: rest => performBranch_reportsAs h n rest

end

end ParseOp

/-! ## Scripts -/

namespace ParseScript

variable (script : ParseScript)

/-- The program of a rule in which calls may be nested as deep as the number says. -/
def calledProgram : Nat → String → ParseProgram Unit
  | 0, _ => .done (.fault .endlessNesting)
  | n + 1, name => ParseOp.programAll (calledProgram n) ((script.rules.lookup name).getD [])

/-- An operation of a script as a program. -/
def program (op : ParseOp) : ParseProgram Unit := op.program (script.calledProgram callLimit)

theorem called_reportsAs (n : Nat) :
    ParseOp.CallsAlike script.parser (script.called n) (script.calledProgram n) := by
  induction n with
  | zero => exact fun _ => .stop _
  | succ n ih => exact fun name => ParseOp.performAll_reportsAs ih _

/-- An operation of a script ends as its program does, leaves the same state and reports the same
events. -/
theorem perform_reportsAs (op : ParseOp) :
    ReportsAs (script.perform op) ((script.program op).perform script.parser) :=
  ParseOp.perform_reportsAs (script.called_reportsAs callLimit) op

/-- The programs of operations one after the other, each going on from where the one before it ended
in whichever way. -/
def programSteps :
    List ParseOp → ParserState → List (Run (Emission Deed) ParserState ParseError Unit)
  | [], _ => []
  | op :: rest, s =>
    let r := (script.program op).perform script.parser s
    r :: programSteps rest r.state

/-- So do the operations of a list, each on its own. -/
theorem steps_reportAs (ops : List ParseOp) (s : ParserState) :
    (script.steps ops s).map (fun step => (step.exit, step.state, reported step.emissions)) =
      (script.programSteps ops s).map fun r => (r.exit, r.state, reported r.records) := by
  induction ops generalizing s with
  | nil => rfl
  | cons op rest ih =>
    obtain ⟨hexit, hstate, hevents⟩ := script.perform_reportsAs op s
    rw [steps, programSteps, List.map_cons, List.map_cons, hstate, ih, hexit, hevents]

end ParseScript

end PredictiveParsing
