import Mathlib.Data.List.Induction

/-!
# Laws that hold all along a history

A law about the events so far holds at the start. If each further event keeps it exactly under a
condition, then it holds all along a history exactly if every event of it meets the condition.
-/

namespace Histories

variable {A : Type} {Law : List A → Prop} {Condition : List A → A → Prop} {events : List A}

theorem forall_isPrefix_iff (start : Law [])
    (step : ∀ done event, done ++ [event] <+: events → Law done →
      (Law (done ++ [event]) ↔ Condition done event)) :
    (∀ done, done <+: events → Law done) ↔
      ∀ done event, done ++ [event] <+: events → Condition done event := by
  have shorter {done : List A} {event : A} (more : done ++ [event] <+: events) :
      done <+: events := (List.prefix_append done [event]).trans more
  constructor
  · intro law done event more
    exact (step done event more (law done (shorter more))).1 (law _ more)
  · intro condition done
    induction done using List.reverseRecOn with
    | nil => exact fun _ => start
    | append_singleton done event ih =>
      intro more
      exact (step done event more (ih (shorter more))).2 (condition done event more)

end Histories
