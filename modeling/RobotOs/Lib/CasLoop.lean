import RobotOs.Lib.Run

/-!
# Compare-and-swap loops on one word

Any number of threads call operations on a shared word.  An operation is a
loop: load the word, decide, and either return or try to replace the loaded
value by a new one.  The replacement fails when the word has another value by
then, or for no reason, and then the loop starts again.

`round c i w` is one decision: the call `c`, an input `i` of this round (what
the loop reads besides the word) and the loaded value `w`.  `Machine` runs the
loops one load and one exchange at a time, in any order, and keeps the history
of the calls that returned.

The result is `replays_history`: the history is a sequential one.  Each call
takes effect at once (`atomic`), on the word that the calls before it left, and
returns what it returned.  A call that returns without a write takes its place
at its last load.  `replays_split` and `replays_invariant` are the rules for
statements about histories.
-/

namespace RobotOs.Lib.CasLoop

open RobotOs.Lib.Run

variable {W C I R : Type}

/-- What a round does with the value it loaded. -/
inductive Round (W R : Type) where
  | done (result : R)
  | swap (new : W) (result : R)

/-- A call that returned, with the input of its last round. -/
structure Event (C I R : Type) where
  call : C
  input : I
  result : R
  deriving DecidableEq, Repr

/-- Where a thread is. -/
inductive Thread (W C I R : Type) where
  | idle
  | running (call : C)
  | holding (call : C) (input : I) (old new : W) (result : R)

/-- The word, the threads and the calls that returned. -/
structure Machine (W C I R : Type) where
  word : W
  threads : Nat → Thread W C I R
  history : List (Event C I R)

/-- A move of one thread. -/
inductive Move (C I : Type) where
  | call (thread : Nat) (call : C)
  | load (thread : Nat) (input : I)
  | exchange (thread : Nat) (fails : Bool)

variable (round : C → I → W → Round W R)

/-- A whole call at once: the word after it and its result. -/
def atomic (call : C) (input : I) (w : W) : W × R :=
  match round call input w with
  | .done result => (w, result)
  | .swap new result => (new, result)

/-- One move.  A move that the thread cannot make changes nothing. -/
def step [DecidableEq W] (m : Machine W C I R) : Move C I → Machine W C I R
  | .call t c =>
    match m.threads t with
    | .idle => { m with threads := Function.update m.threads t (.running c) }
    | _ => m
  | .load t i =>
    match m.threads t with
    | .running c =>
      match round c i m.word with
      | .done result =>
        { m with
          threads := Function.update m.threads t .idle
          history := m.history ++ [⟨c, i, result⟩] }
      | .swap new result =>
        { m with threads := Function.update m.threads t (.holding c i m.word new result) }
    | _ => m
  | .exchange t fails =>
    match m.threads t with
    | .holding c i old new result =>
      if m.word = old ∧ fails = false then
        { word := new
          threads := Function.update m.threads t .idle
          history := m.history ++ [⟨c, i, result⟩] }
      else { m with threads := Function.update m.threads t (.running c) }
    | _ => m

/-- No call under way. -/
def start (w : W) : Machine W C I R := ⟨w, fun _ => .idle, []⟩

/-! ## Sequential histories -/

/-- The word after some events, each taken at once. -/
def after (w : W) (events : List (Event C I R)) : W :=
  events.foldl (fun u e => (atomic round e.call e.input u).1) w

@[simp] theorem after_nil (w : W) : after round w ([] : List (Event C I R)) = w := rfl

@[simp] theorem after_cons (w : W) (e : Event C I R) (es : List (Event C I R)) :
    after round w (e :: es) = after round (atomic round e.call e.input w).1 es := rfl

@[simp] theorem after_append (w : W) (es fs : List (Event C I R)) :
    after round w (es ++ fs) = after round (after round w es) fs :=
  List.foldl_append

/-- The events happen one after the other, from the first word to the last. -/
def Replays (w : W) : List (Event C I R) → W → Prop
  | [], w' => w = w'
  | e :: es, w' =>
    (atomic round e.call e.input w).2 = e.result ∧
      Replays (atomic round e.call e.input w).1 es w'

variable {round}

theorem replays_append {w w' : W} {es fs : List (Event C I R)} :
    Replays round w (es ++ fs) w' ↔ ∃ mid, Replays round w es mid ∧ Replays round mid fs w' := by
  induction es generalizing w with
  | nil => simp [Replays]
  | cons e es ih => simp [Replays, ih, and_assoc]

theorem eq_after_of_replays {w w' : W} {es : List (Event C I R)} (h : Replays round w es w') :
    w' = after round w es := by
  induction es generalizing w with
  | nil => exact Eq.symm h
  | cons e es ih => exact ih h.2

/-- An event in the middle of a history happens on the word that the events
before it left. -/
theorem replays_split {w w' : W} {pre post : List (Event C I R)} {e : Event C I R}
    (h : Replays round w (pre ++ e :: post) w') :
    (atomic round e.call e.input (after round w pre)).2 = e.result ∧
      Replays round (after round w (pre ++ [e])) post w' := by
  obtain ⟨mid, hpre, hres, hpost⟩ := replays_append.mp h
  obtain rfl := eq_after_of_replays hpre
  exact ⟨hres, by simpa using hpost⟩

/-- A property of the word that each event keeps holds at the end. -/
theorem replays_invariant (inv : W → Prop) {w w' : W} {es : List (Event C I R)}
    (h : Replays round w es w')
    (hstep : ∀ e ∈ es, ∀ u, inv u → (atomic round e.call e.input u).2 = e.result →
      inv (atomic round e.call e.input u).1) (hw : inv w) : inv w' := by
  induction es generalizing w with
  | nil =>
    obtain rfl : w = w' := h
    exact hw
  | cons e es ih =>
    obtain ⟨hres, hrest⟩ := h
    exact ih hrest (fun f hf => hstep f (List.mem_cons_of_mem _ hf))
      (hstep e List.mem_cons_self w hw hres)

/-- Between two words of which only the second has a property, some event brings
it about. -/
theorem exists_entering (p : W → Prop) {w : W} {es : List (Event C I R)} (hw : ¬p w)
    (hend : p (after round w es)) :
    ∃ pre e post, es = pre ++ e :: post ∧ ¬p (after round w pre) ∧
      p (after round w (pre ++ [e])) := by
  induction es generalizing w with
  | nil => exact absurd hend hw
  | cons e es ih =>
    by_cases he : p (atomic round e.call e.input w).1
    · exact ⟨[], e, es, rfl, hw, he⟩
    · obtain ⟨pre, f, post, rfl, hbefore, hafter⟩ := ih he hend
      exact ⟨e :: pre, f, post, rfl, hbefore, hafter⟩

/-! ## The history of the loops -/

variable [DecidableEq W]

/-- The history is sequential up to now, and a thread that is about to exchange
decided for the value it loaded. -/
structure Inv (round : C → I → W → Round W R) (w : W) (m : Machine W C I R) : Prop where
  replays : Replays round w m.history m.word
  decided : ∀ t c i old new result, m.threads t = .holding c i old new result →
    round c i old = .swap new result

omit [DecidableEq W] in
/-- The second part is kept when one thread moves. -/
theorem decided_update {m : Machine W C I R} {t : Nat} {thread : Thread W C I R}
    (h : ∀ t c i old new result, m.threads t = .holding c i old new result →
      round c i old = .swap new result)
    (hthread : ∀ c i old new result, thread = .holding c i old new result →
      round c i old = .swap new result) :
    ∀ u c i old new result, Function.update m.threads t thread u = .holding c i old new result →
      round c i old = .swap new result := by
  intro u c i old new result hu
  by_cases he : u = t
  · rw [he, Function.update_self] at hu
    exact hthread c i old new result hu
  · rw [Function.update_of_ne he] at hu
    exact h u c i old new result hu

theorem inv_step {w : W} {m : Machine W C I R} (h : Inv round w m) (move : Move C I) :
    Inv round w (step round m move) := by
  cases move with
  | call t c =>
    simp only [step]
    split
    · exact ⟨h.replays, decided_update h.decided (by simp)⟩
    · exact h
  | load t i =>
    simp only [step]
    split
    next c _ =>
      split
      next result hround =>
        refine ⟨replays_append.mpr ⟨m.word, h.replays, ?_⟩, decided_update h.decided (by simp)⟩
        simp [Replays, atomic, hround]
      next new result hround =>
        refine ⟨h.replays, decided_update h.decided ?_⟩
        rintro c' i' old new' result' he
        cases he
        exact hround
    · exact h
  | exchange t fails =>
    simp only [step]
    split
    next c i old new result hthread =>
      have hround := h.decided t c i old new result hthread
      split_ifs with hword
      · -- The word is the value that was loaded, so the call happens now.
        refine ⟨replays_append.mpr ⟨m.word, h.replays, ?_⟩, decided_update h.decided (by simp)⟩
        simp [Replays, atomic, hword.1, hround]
      · exact ⟨h.replays, decided_update h.decided (by simp)⟩
    · exact h

/-- The calls that returned happened one after the other. -/
theorem replays_history (round : C → I → W → Round W R) (w : W) (moves : List (Move C I)) :
    Replays round w (run (step round) (start w) moves).history
      (run (step round) (start w) moves).word := by
  have hstart : Inv round w (start w) := ⟨rfl, by simp [start]⟩
  exact (run_invariant (Inv round w) (fun _ move h => inv_step h move) hstart moves).replays

end RobotOs.Lib.CasLoop
