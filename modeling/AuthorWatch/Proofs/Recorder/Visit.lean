import AuthorWatch.Proofs.Recorder.Run

/-! Items that each find the files as somebody may have left them: changed, removed, or with
directories in their place. What a recorder holds in memory depends on the items alone. -/

namespace AuthorWatch

/-- An arrival, and the files that it finds. -/
structure Visit where
  files : FileTree
  arrival : Arrival

namespace Tracker

/-- The tracker after arrivals, one after another. -/
def after (t : Tracker) (arrivals : List Arrival) : Tracker :=
  arrivals.foldl (fun t a => (t.step a.now a.item).1) t

/-- What every item keeps holds after any number of them. -/
theorem after_induction {P : Tracker → Prop} {t : Tracker} (hstart : P t)
    (hstep : ∀ t now item, P t → P (t.step now item).1) (arrivals : List Arrival) :
    P (t.after arrivals) := by
  induction arrivals generalizing t with
  | nil => exact hstart
  | cons a arrivals ih => exact ih (hstep t a.now a.item hstart)

end Tracker

namespace Recorder

/-- The outcome of processing a visit. -/
def meet (r : Recorder) (v : Visit) : Outcome := r.process v.files v.arrival.item v.arrival.now

/-- The recorder after visits, one after another. -/
def after (r : Recorder) (visits : List Visit) : Recorder :=
  visits.foldl (fun r v => (r.meet v).recorder) r

@[simp] theorem tracker_meet (r : Recorder) (v : Visit) :
    (r.meet v).recorder.tracker = (r.tracker.step v.arrival.now v.arrival.item).1 :=
  r.tracker_process ..

/-- Whatever the files were, the same items leave the same in memory. -/
theorem tracker_after (r : Recorder) (visits : List Visit) :
    (r.after visits).tracker = r.tracker.after (visits.map Visit.arrival) := by
  induction visits generalizing r with
  | nil => rfl
  | cons v visits ih => exact (ih _).trans (by rw [tracker_meet]; rfl)

end Recorder

end AuthorWatch
