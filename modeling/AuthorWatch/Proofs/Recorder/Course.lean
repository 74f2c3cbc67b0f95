import AuthorWatch.Proofs.Recorder.Run
import AuthorWatch.Proofs.Snapshot.Document

/-! Runs with restarts. Between two arrivals a recorder may be thrown away; another is then
opened on the files that it left. -/

namespace AuthorWatch

/-- A session opened on files, unless the output cannot be used. -/
def Session.open (plan : Recorder.Plan) (files : FileTree) : Except Output.Unusable Session :=
  (Recorder.open plan files).recorder.map fun r => ⟨r, (Recorder.open plan files).files⟩

/-- Three files beside each other. -/
def besidePlan : Recorder.Plan :=
  ⟨⟨false, ["nodes"]⟩, ⟨false, ["blocks"]⟩, ⟨false, ["output"]⟩, ⟨1, 3, 1⟩, ⟨1, Nat.one_pos⟩⟩

theorem Session.open_eq (plan : Recorder.Plan) (files : FileTree) : Session.open plan files
    = (Output.prepare files plan.output Row.columns).2.map fun output =>
      ⟨⟨⟨Snapshot.held Node.ofJson files plan.nodes,
          Ledger.enforce (Snapshot.held Record.ofJson files plan.blocks) plan.window, plan.policy,
          plan.window⟩, ⟨some ⟨plan.nodes, plan.blocks⟩, some output⟩⟩,
        (Output.prepare files plan.output Row.columns).1⟩ := by
  rw [Session.open, Recorder.open, ← Snapshot.load_fst .nodes, ← Snapshot.load_fst .blocks]
  rcases Output.prepare files plan.output Row.columns with ⟨prepared, output⟩
  cases output <;> rfl

/-- Whatever was opened holds what its snapshots gave, and an output that was made ready. -/
theorem Session.prepared_of_open {plan : Recorder.Plan} {files : FileTree} {s : Session}
    (h : Session.open plan files = .ok s) :
    ∃ prepared, Output.prepare files plan.output Row.columns
        = (prepared, .ok ⟨plan.output, Row.columns, 0⟩)
      ∧ s = ⟨⟨⟨Snapshot.held Node.ofJson files plan.nodes,
          Ledger.enforce (Snapshot.held Record.ofJson files plan.blocks) plan.window, plan.policy,
          plan.window⟩,
        ⟨some ⟨plan.nodes, plan.blocks⟩, some ⟨plan.output, Row.columns, 0⟩⟩⟩, prepared⟩ := by
  rw [Session.open_eq] at h
  rcases hprepare : Output.prepare files plan.output Row.columns with ⟨prepared, output | output⟩
  · rw [hprepare] at h
    cases h
  · rw [hprepare] at h
    cases h
    obtain ⟨-, -, rfl, -⟩ := Output.prepare_spec hprepare
    exact ⟨prepared, rfl, rfl⟩

/-- What happens next: an item arrives, or the recorder is opened anew. -/
inductive Turn where
  | arrival (a : Arrival)
  | restart (plan : Recorder.Plan)

def Turn.arrival? : Turn → Option Arrival
  | arrival a => some a
  | restart _ => none

/-- The rows that an outcome gives back. -/
def Recorder.Outcome.returned (o : Recorder.Outcome) : List Row :=
  match o.rows with
  | .ok rows => rows
  | .error _ => []

/-- A session, and how the arrivals before it came out. -/
structure Course where
  session : Session
  outcomes : List Recorder.Outcome
  /-- The outcomes since the recorder was last opened. -/
  recent : List Recorder.Outcome

namespace Course

def start (s : Session) : Course := ⟨s, [], []⟩

def step (c : Course) : Turn → Except Output.Unusable Course
  | .arrival a =>
    .ok ⟨c.session.next a, c.outcomes ++ [c.session.apply a], c.recent ++ [c.session.apply a]⟩
  | .restart plan => (Session.open plan c.session.files).map fun s => ⟨s, c.outcomes, []⟩

/-- The course after turns, one after another, unless a recorder cannot be opened. -/
def play (c : Course) (turns : List Turn) : Except Output.Unusable Course := turns.foldlM step c

theorem play_restart {c : Course} {plan : Recorder.Plan} {s : Session}
    (h : Session.open plan c.session.files = .ok s) (turns : List Turn) :
    c.play (.restart plan :: turns) = play ⟨s, c.outcomes, []⟩ turns := by
  rw [play, List.foldlM_cons, step, h]
  rfl

end Course

end AuthorWatch
