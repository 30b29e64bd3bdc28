import Mathlib.Data.List.DropRight

/-!
# The latest event of a history

A history is the list of its events, the latest one last.

* `latest f events`: what the last event gave that gave something, where `f` says what an event
  gives.
* `since p events`: the events after the last one with `p`.
* `latest_concat`, `since_concat`: what one more event changes.
-/

variable {α β : Type*}

def latest (f : α → Option β) (events : List α) : Option β := (events.filterMap f).getLast?

@[simp] theorem latest_nil (f : α → Option β) : latest f [] = none := rfl

theorem latest_concat (f : α → Option β) (events : List α) (e : α) :
    latest f (events ++ [e]) = (f e).or (latest f events) := by
  unfold latest
  rw [List.filterMap_append, List.getLast?_append]
  cases he : f e with
  | none => simp [he]
  | some b => simp [he]

/-- An event that gives nothing changes nothing. -/
theorem latest_concat_of_none {f : α → Option β} {e : α} (h : f e = none) (events : List α) :
    latest f (events ++ [e]) = latest f events := by
  rw [latest_concat, h, Option.none_or]

def since (p : α → Bool) (events : List α) : List α := events.rtakeWhile fun e => !p e

@[simp] theorem since_nil (p : α → Bool) : since p [] = [] := rfl

theorem since_concat (p : α → Bool) (events : List α) (e : α) :
    since p (events ++ [e]) = if p e then [] else since p events ++ [e] := by
  unfold since
  rw [List.rtakeWhile_concat]
  cases p e <;> rfl
