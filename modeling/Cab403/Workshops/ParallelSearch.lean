/-
The parallel search of hashtable_search.c. `htab_search_value` cuts the buckets into
ranges by a truncating division, creates a thread for each, and joins them; the threads
walk along their buckets and print in any order. What is left to be looked at is kept
beside the points of the threads: printed and left together make up the whole answer.
-/

import Cab403.Library.Tally
import Cab403.Workshops.HashTable
import Mathlib.Algebra.BigOperators.Fin

namespace Cab403.Workshops.ParallelSearch

open ActionRuns CText LinkedChain Tally
open HashTable (Table)

def NUM_THREADS : Nat := 4

abbrev Thread := Fin NUM_THREADS

/-- `thread_data_t`, less the table and the value, which all threads share. -/
structure ThreadData where
  start : Nat
  stop : Nat

/-- Where a thread stands: before it is created, at the test of the outer loop, at the
test of the inner loop, behind its body, or at its end. -/
inductive Point (Address : Type*) where
  | absent
  | outer (i : Nat)
  | inner (i : Nat) (bucket : Option Address)
  | advancing (i : Nat) (bucket : Address)
  | ended

inductive MainPoint where
  | creating (i : Nat)
  | joining (i : Nat)
  | returned

structure Search (Address : Type*) where
  main : MainPoint
  data : Thread → ThreadData
  points : Thread → Point Address
  printed : List (List UInt8)

inductive Action where
  | main
  | thread (thread : Thread)

section Code

variable {Address : Type*}

def bucketsPerThread (table : Table Address) : Nat := table.size / NUM_THREADS

/-- The range of buckets thread `i` is given: the last one gets the rest. No product is
above the size, so `size_t` does not wrap. -/
def threadRange (table : Table Address) (i : Nat) : ThreadData :=
  { start := i * bucketsPerThread table
    stop := if i = NUM_THREADS - 1 then table.size else (i + 1) * bucketsPerThread table }

def Search.start : Search Address :=
  { main := .creating 0
    data := fun _ => { start := 0, stop := 0 }
    points := fun _ => .absent
    printed := [] }

def keyText (table : Table Address) (item : Address) : List UInt8 :=
  stringAt (table.key item).toList

/-- `htab_search_value`. `pthread_create` always makes a thread, and `pthread_join` waits
for its end. -/
def htabSearchValue (table : Table Address) (state : Search Address) : Option (Search Address) :=
  match state.main with
  | .creating i =>
      if inside : i < NUM_THREADS then
        some { state with
          main := .creating (i + 1)
          data := Function.update state.data ⟨i, inside⟩ (threadRange table i)
          points := Function.update state.points ⟨i, inside⟩ (.outer (threadRange table i).start) }
      else some { state with main := .joining 0 }
  | .joining i =>
      if inside : i < NUM_THREADS then
        match state.points ⟨i, inside⟩ with
        | .ended => some { state with main := .joining (i + 1) }
        | _ => none
      else some { state with main := .returned }
  | .returned => none

/-- `htab_search_value_thread`. The test for a null bucket inside the loop never holds. -/
def htabSearchValueThread (table : Table Address) (search : Int) (state : Search Address)
    (thread : Thread) : Option (Search Address) :=
  let stand (point : Point Address) := Function.update state.points thread point
  match state.points thread with
  | .absent | .ended => none
  | .outer i =>
      if i < (state.data thread).stop then
        some { state with points := stand (.inner i (table.buckets i)) }
      else some { state with points := stand .ended }
  | .inner i none => some { state with points := stand (.outer (i + 1)) }
  | .inner i (some bucket) =>
      some { state with
        points := stand (.advancing i bucket)
        printed :=
          if table.value bucket = search then state.printed ++ [keyText table bucket]
          else state.printed }
  | .advancing i bucket => some { state with points := stand (.inner i (table.next bucket)) }

def step (table : Table Address) (search : Int) (state : Search Address) :
    Action → Option (Search Address)
  | .main => htabSearchValue table state
  | .thread thread => htabSearchValueThread table search state thread

/-! ### The answer -/

def matching (table : Table Address) (search : Int) (items : List Address) :
    List (List UInt8) :=
  (items.filter fun item => table.value item = search).map (keyText table)

def between (chains : Nat → List Address) (start stop : Nat) : List Address :=
  (List.range' start (stop - start)).flatMap chains

def Chained (table : Table Address) (chains : Nat → List Address) : Prop :=
  ∀ index < table.size, Segment table.next (table.buckets index) (chains index) none

theorem between_step (chains : Nat → List Address) {start stop : Nat} (inside : start < stop) :
    between chains start stop = chains start ++ between chains (start + 1) stop := by
  unfold between
  rw [show stop - start = stop - (start + 1) + 1 by omega, List.range'_succ, List.flatMap_cons]

theorem between_empty (chains : Nat → List Address) {start stop : Nat} (done : stop ≤ start) :
    between chains start stop = [] := by
  unfold between
  rw [Nat.sub_eq_zero_of_le done]
  rfl

theorem between_append (chains : Nat → List Address) {start middle stop : Nat}
    (first : start ≤ middle) (second : middle ≤ stop) :
    between chains start middle ++ between chains middle stop = between chains start stop := by
  obtain ⟨front, rfl⟩ := Nat.exists_eq_add_of_le first
  obtain ⟨back, rfl⟩ := Nat.exists_eq_add_of_le second
  have whole : start + front + back - start = front + back := by omega
  unfold between
  rw [← List.flatMap_append, Nat.add_sub_cancel_left, Nat.add_sub_cancel_left, whole,
    List.range'_append_1]

theorem matching_append (table : Table Address) (search : Int) (front back : List Address) :
    matching table search (front ++ back) =
      matching table search front ++ matching table search back := by
  simp only [matching, List.filter_append, List.map_append]

theorem matching_cons (table : Table Address) (search : Int) (item : Address)
    (rest : List Address) :
    matching table search (item :: rest) =
      (if table.value item = search then [keyText table item] else []) ++
        matching table search rest := by
  unfold matching
  by_cases found : table.value item = search
  · simp [found]
  · simp [found]

/-! ### What is left to be searched -/

/-- The steps of a thread from the outer test of a bucket on. -/
def scanCost (chains : Nat → List Address) (start stop : Nat) : Nat :=
  1 + ((List.range' start (stop - start)).map fun bucket => 2 + 2 * (chains bucket).length).sum

theorem scanCost_step (chains : Nat → List Address) {start stop : Nat} (inside : start < stop) :
    scanCost chains start stop =
      2 + 2 * (chains start).length + scanCost chains (start + 1) stop := by
  unfold scanCost
  rw [show stop - start = stop - (start + 1) + 1 by omega, List.range'_succ, List.map_cons,
    List.sum_cons]
  omega

/-- The items a thread at a point has not tested yet, and the steps it has left. -/
inductive Left (table : Table Address) (chains : Nat → List Address) (range : ThreadData) :
    Point Address → List Address → Nat → Prop
  | absent : Left table chains range .absent (between chains range.start range.stop)
      (scanCost chains range.start range.stop)
  | outer (i : Nat) : Left table chains range (.outer i) (between chains i range.stop)
      (scanCost chains i range.stop)
  | inner {i : Nat} {bucket : Option Address} {rest : List Address}
      (segment : Segment table.next bucket rest none) :
      Left table chains range (.inner i bucket) (rest ++ between chains (i + 1) range.stop)
        (1 + 2 * rest.length + scanCost chains (i + 1) range.stop)
  | advancing {i : Nat} {bucket : Address} {rest : List Address}
      (segment : Segment table.next (table.next bucket) rest none) :
      Left table chains range (.advancing i bucket) (rest ++ between chains (i + 1) range.stop)
        (2 + 2 * rest.length + scanCost chains (i + 1) range.stop)
  | ended : Left table chains range .ended [] 0

/-- How far the creation and the joining of the threads have come. -/
def MainAt (points : Thread → Point Address) : MainPoint → Prop
  | .creating i => i ≤ NUM_THREADS ∧ ∀ thread : Thread, points thread = .absent ↔ i ≤ thread.val
  | .joining i =>
      i ≤ NUM_THREADS ∧ (∀ thread, points thread ≠ .absent) ∧
        ∀ thread : Thread, thread.val < i → points thread = .ended
  | .returned => ∀ thread, points thread = .ended

def mainCost : MainPoint → Nat
  | .creating i => 2 * NUM_THREADS + 2 - i
  | .joining i => NUM_THREADS + 1 - i
  | .returned => 0

def allItems (table : Table Address) (chains : Nat → List Address) : List Address :=
  between chains 0 table.size

structure Searching (table : Table Address) (search : Int) (chains : Nat → List Address)
    (state : Search Address) (left : Thread → List Address) (cost : Thread → Nat) : Prop where
  main : MainAt state.points state.main
  threads : ∀ thread : Thread,
    Left table chains (threadRange table thread) (state.points thread) (left thread) (cost thread)
  data : ∀ thread : Thread, state.points thread ≠ .absent →
    state.data thread = threadRange table thread
  counted : ∀ key, state.printed.count key +
      tally (fun _ items => (matching table search items).count key) left =
    (matching table search (allItems table chains)).count key

def measure (state : Search Address) (cost : Thread → Nat) : Nat :=
  mainCost state.main + tally (fun _ steps => steps) cost

variable {table : Table Address} {search : Int} {chains : Nat → List Address}
  {state : Search Address} {left : Thread → List Address} {cost : Thread → Nat}

theorem threadRange_stop_le (table : Table Address) (thread : Thread) :
    (threadRange table thread).stop ≤ table.size := by
  unfold threadRange
  dsimp only
  split
  · exact Nat.le_refl _
  · have inside := thread.isLt
    have whole := Nat.div_mul_le_self table.size NUM_THREADS
    have few := Nat.mul_le_mul_right (bucketsPerThread table)
      (show thread.val + 1 ≤ NUM_THREADS by omega)
    unfold bucketsPerThread at few ⊢
    rw [Nat.mul_comm] at whole
    omega

theorem MainAt.moved {points : Thread → Point Address} {main : MainPoint}
    (held : MainAt points main) {thread : Thread} {point : Point Address}
    (created : points thread ≠ .absent) (running : points thread ≠ .ended)
    (there : point ≠ .absent) : MainAt (Function.update points thread point) main := by
  have absent_iff (other : Thread) :
      Function.update points thread point other = .absent ↔ points other = .absent := by
    by_cases same : other = thread
    · subst same
      rw [Function.update_self]
      exact iff_of_false there created
    · rw [Function.update_of_ne same]
  cases main with
  | creating i => exact ⟨held.1, fun other => (absent_iff other).trans (held.2 other)⟩
  | joining i =>
      refine ⟨held.1, fun other absent => held.2.1 other ((absent_iff other).mp absent), ?_⟩
      intro other joined
      have apart : other ≠ thread := by
        rintro rfl
        exact running (held.2.2 other joined)
      rw [Function.update_of_ne apart]
      exact held.2.2 other joined
  | returned => exact absurd (held thread) running

/-- One thread moves: what it prints is what it has no longer left. -/
theorem Searching.moved (searching : Searching table search chains state left cost)
    {thread : Thread} {point : Point Address} {items : List Address} {steps : Nat}
    {printed : List (List UInt8)} {next : Search Address}
    (moves : next =
      { state with points := Function.update state.points thread point, printed := printed })
    (created : state.points thread ≠ .absent) (running : state.points thread ≠ .ended)
    (there : point ≠ .absent)
    (still : Left table chains (threadRange table thread) point items steps)
    (prints : ∀ key, printed.count key + (matching table search items).count key =
      state.printed.count key + (matching table search (left thread)).count key)
    (lower : steps < cost thread) :
    ∃ newLeft newCost, Searching table search chains next newLeft newCost ∧
      measure next newCost < measure state cost := by
  subst moves
  use Function.update left thread items, Function.update cost thread steps
  constructor
  · constructor
    case main => exact searching.main.moved created running there
    case threads =>
      intro other
      by_cases same : other = thread
      · subst same
        dsimp only
        rw [Function.update_self, Function.update_self, Function.update_self]
        exact still
      · dsimp only
        rw [Function.update_of_ne same, Function.update_of_ne same, Function.update_of_ne same]
        exact searching.threads other
    case data =>
      intro other present
      apply searching.data other
      by_cases same : other = thread
      · subst same
        exact created
      · dsimp only at present
        rw [Function.update_of_ne same] at present
        exact present
    case counted =>
      intro key
      have total := searching.counted key
      have moved := tally_update
        (fun (_ : Thread) items => (matching table search items).count key) left thread items
      have here := prints key
      dsimp only at moved ⊢
      omega
  · have moved := tally_update (fun (_ : Thread) (steps : Nat) => steps) cost thread steps
    unfold measure
    dsimp only at moved ⊢
    omega

theorem Searching.threadStep (searching : Searching table search chains state left cost)
    (chained : Chained table chains) {thread : Thread} {next : Search Address}
    (taken : htabSearchValueThread table search state thread = some next) :
    ∃ newLeft newCost, Searching table search chains next newLeft newCost ∧
      measure next newCost < measure state cost := by
  have here := searching.threads thread
  have data := searching.data thread
  have bounded := threadRange_stop_le table thread
  unfold htabSearchValueThread at taken
  dsimp only at taken
  generalize known : left thread = items at here
  generalize steps : cost thread = count at here
  cases atPoint : state.points thread with
  | absent => simp [atPoint] at taken
  | ended => simp [atPoint] at taken
  | outer i =>
      have created : state.points thread ≠ .absent := by simp [atPoint]
      have running : state.points thread ≠ .ended := by simp [atPoint]
      rw [atPoint] at taken here
      dsimp only at taken
      rw [data created] at taken
      cases here
      split at taken
      · rename_i inside
        cases taken
        have cost_ := scanCost_step chains inside
        apply searching.moved rfl created running (by simp)
          (.inner (chained i (Nat.lt_of_lt_of_le inside bounded)))
        · intro key
          rw [known, between_step chains inside]
        · omega
      · rename_i done
        cases taken
        apply searching.moved rfl created running (by simp) .ended
        · intro key
          rw [known, between_empty chains (Nat.not_lt.mp done)]
        · rw [steps, scanCost]
          omega
  | inner i bucket =>
      have created : state.points thread ≠ .absent := by simp [atPoint]
      have running : state.points thread ≠ .ended := by simp [atPoint]
      rw [atPoint] at taken here
      cases here with
      | @inner _ _ rest segment =>
          cases bucket with
          | none =>
              cases taken
              have empty : rest = [] := segment.unique rfl
              subst empty
              apply searching.moved rfl created running (by simp) (.outer (i + 1))
              · intro key
                rw [known, List.nil_append]
              · omega
          | some bucket =>
              cases rest with
              | nil => cases segment
              | cons item rest =>
                  obtain ⟨first, later⟩ := segment
                  cases first
                  cases taken
                  apply searching.moved rfl created running (by simp) (.advancing later)
                  · intro key
                    rw [known, List.cons_append, matching_cons, List.count_append]
                    by_cases found : table.value bucket = search
                    · rw [if_pos found, if_pos found, List.count_append]
                      omega
                    · rw [if_neg found, if_neg found, List.count_nil]
                      omega
                  · rw [steps, List.length_cons]
                    omega
  | advancing i bucket =>
      have created : state.points thread ≠ .absent := by simp [atPoint]
      have running : state.points thread ≠ .ended := by simp [atPoint]
      rw [atPoint] at taken here
      cases here with
      | @advancing _ _ rest segment =>
          cases taken
          apply searching.moved rfl created running (by simp) (.inner segment)
          · intro key
            rw [known]
          · omega

/-- The main thread goes on and touches nothing else. -/
theorem Searching.mainMoved (searching : Searching table search chains state left cost)
    {main : MainPoint} (there : MainAt state.points main)
    (lower : mainCost main < mainCost state.main) :
    ∃ newLeft newCost, Searching table search chains { state with main := main } newLeft newCost ∧
      measure { state with main := main } newCost < measure state cost := by
  refine ⟨left, cost, ?_, ?_⟩
  · exact
      { main := there
        threads := searching.threads
        data := searching.data
        counted := searching.counted }
  · unfold measure
    dsimp only
    omega

theorem Searching.created (searching : Searching table search chains state left cost) {i : Nat}
    (atMain : state.main = .creating i) (inside : i < NUM_THREADS) :
    Searching table search chains
      { state with
        main := .creating (i + 1)
        data := Function.update state.data ⟨i, inside⟩ (threadRange table i)
        points := Function.update state.points ⟨i, inside⟩ (.outer (threadRange table i).start) }
      left cost := by
  have main := searching.main
  rw [atMain] at main
  have absent : state.points ⟨i, inside⟩ = .absent := (main.2 ⟨i, inside⟩).mpr (Nat.le_refl i)
  constructor
  case main =>
    refine ⟨inside, fun other => ?_⟩
    dsimp only
    by_cases same : other = ⟨i, inside⟩
    · subst same
      rw [Function.update_self]
      exact iff_of_false nofun (Nat.not_succ_le_self i)
    · have apart : other.val ≠ i := fun value => same (Fin.ext value)
      rw [Function.update_of_ne same, main.2 other]
      omega
  case threads =>
    intro other
    have kept := searching.threads other
    dsimp only
    by_cases same : other = ⟨i, inside⟩
    · subst same
      rw [absent] at kept
      rw [Function.update_self]
      generalize left ⟨i, inside⟩ = items at kept ⊢
      generalize cost ⟨i, inside⟩ = count at kept ⊢
      cases kept
      exact .outer _
    · rw [Function.update_of_ne same]
      exact kept
  case data =>
    intro other present
    dsimp only at present ⊢
    by_cases same : other = ⟨i, inside⟩
    · subst same
      exact Function.update_self ..
    · rw [Function.update_of_ne same] at present ⊢
      exact searching.data other present
  case counted => exact searching.counted

theorem Searching.mainStep (searching : Searching table search chains state left cost)
    {next : Search Address} (taken : htabSearchValue table state = some next) :
    ∃ newLeft newCost, Searching table search chains next newLeft newCost ∧
      measure next newCost < measure state cost := by
  have main := searching.main
  unfold htabSearchValue at taken
  cases atMain : state.main with
  | creating i =>
      rw [atMain] at taken main
      dsimp only at taken
      have few := main.1
      split at taken
      · rename_i inside
        cases taken
        refine ⟨left, cost, searching.created atMain inside, ?_⟩
        unfold measure
        rw [atMain]
        dsimp only [mainCost]
        omega
      · rename_i outside
        cases taken
        apply searching.mainMoved
        · refine ⟨Nat.zero_le _, fun other absent => ?_, nofun⟩
          have least := (main.2 other).mp absent
          have bounded := other.isLt
          omega
        · rw [atMain]
          dsimp only [mainCost]
          omega
  | joining i =>
      rw [atMain] at taken main
      dsimp only at taken
      have few := main.1
      split at taken
      · rename_i inside
        cases atPoint : state.points ⟨i, inside⟩ with
        | ended =>
            rw [atPoint] at taken
            cases taken
            apply searching.mainMoved
            · refine ⟨inside, main.2.1, fun other joined => ?_⟩
              by_cases same : other = ⟨i, inside⟩
              · subst same
                exact atPoint
              · have apart : other.val ≠ i := fun value => same (Fin.ext value)
                exact main.2.2 other (by omega)
            · rw [atMain]
              dsimp only [mainCost]
              omega
        | absent | outer | inner | advancing => simp [atPoint] at taken
      · rename_i outside
        cases taken
        apply searching.mainMoved
        · intro other
          have bounded := other.isLt
          exact main.2.2 other (by omega)
        · rw [atMain]
          dsimp only [mainCost]
          omega
  | returned =>
      rw [atMain] at taken
      cases taken

/-! ### Whole runs -/

/-- The ranges follow one another from the first bucket to the last. -/
theorem allItems_ranges (table : Table Address) (chains : Nat → List Address) :
    allItems table chains =
      between chains (0 * bucketsPerThread table) (1 * bucketsPerThread table) ++
        (between chains (1 * bucketsPerThread table) (2 * bucketsPerThread table) ++
          (between chains (2 * bucketsPerThread table) (3 * bucketsPerThread table) ++
            between chains (3 * bucketsPerThread table) table.size)) := by
  have whole : 4 * bucketsPerThread table ≤ table.size :=
    Nat.mul_div_le table.size NUM_THREADS
  rw [between_append chains (by omega) (by omega), between_append chains (by omega) (by omega),
    between_append chains (by omega) (by omega), Nat.zero_mul]
  rfl

def rangeItems (table : Table Address) (chains : Nat → List Address) (thread : Thread) :
    List Address :=
  between chains (threadRange table thread).start (threadRange table thread).stop

def rangeCost (table : Table Address) (chains : Nat → List Address) (thread : Thread) : Nat :=
  scanCost chains (threadRange table thread).start (threadRange table thread).stop

theorem count_ranges (table : Table Address) (search : Int) (chains : Nat → List Address)
    (key : List UInt8) :
    tally (fun _ items => (matching table search items).count key) (rangeItems table chains) =
      (matching table search (allItems table chains)).count key := by
  rw [allItems_ranges, matching_append, matching_append, matching_append, List.count_append,
    List.count_append, List.count_append, ← Nat.add_assoc, ← Nat.add_assoc]
  exact Fin.sum_univ_four fun thread =>
    (matching table search (rangeItems table chains thread)).count key

theorem searching_start (table : Table Address) (search : Int) (chains : Nat → List Address) :
    Searching table search chains Search.start (rangeItems table chains)
      (rangeCost table chains) := by
  constructor
  case main => exact ⟨Nat.zero_le _, fun thread => iff_of_true rfl (Nat.zero_le _)⟩
  case threads => exact fun thread => .absent
  case data => exact fun thread created => absurd rfl created
  case counted =>
    intro key
    rw [count_ranges]
    exact Nat.zero_add _

theorem Searching.stepped (searching : Searching table search chains state left cost)
    (chained : Chained table chains) {action : Action} {next : Search Address}
    (taken : step table search state action = some next) :
    ∃ newLeft newCost, Searching table search chains next newLeft newCost ∧
      measure next newCost < measure state cost := by
  cases action with
  | main => exact searching.mainStep taken
  | thread thread => exact searching.threadStep chained taken

theorem Searching.runs {actions : List Action} {final : Search Address}
    (searching : Searching table search chains state left cost) (chained : Chained table chains)
    (ran : run (step table search) state actions = some final) :
    ∃ newLeft newCost, Searching table search chains final newLeft newCost ∧
      actions.length + measure final newCost ≤ measure state cost := by
  induction actions generalizing state left cost with
  | nil =>
      cases ran
      exact ⟨left, cost, searching, by rw [List.length_nil, Nat.zero_add]⟩
  | cons action rest ih =>
      obtain ⟨next, taken, later⟩ := run_cons_eq_some.mp ran
      obtain ⟨nextLeft, nextCost, nextSearching, lower⟩ := searching.stepped chained taken
      obtain ⟨finalLeft, finalCost, finalSearching, bound⟩ := ih nextSearching later
      refine ⟨finalLeft, finalCost, finalSearching, ?_⟩
      rw [List.length_cons]
      omega

/-- A thread that is neither absent nor at its end can go on. -/
theorem thread_enabled (table : Table Address) (search : Int) {state : Search Address}
    {thread : Thread} (created : state.points thread ≠ .absent)
    (running : state.points thread ≠ .ended) :
    ∃ next, htabSearchValueThread table search state thread = some next := by
  unfold htabSearchValueThread
  cases atPoint : state.points thread with
  | absent => exact absurd atPoint created
  | ended => exact absurd atPoint running
  | outer i =>
      dsimp only
      split
      · exact ⟨_, rfl⟩
      · exact ⟨_, rfl⟩
  | inner i bucket =>
      cases bucket with
      | none => exact ⟨_, rfl⟩
      | some bucket => exact ⟨_, rfl⟩
  | advancing i bucket => exact ⟨_, rfl⟩

/-- Until `htab_search_value` returns, it or the thread it waits for can go on. -/
theorem Searching.enabled (searching : Searching table search chains state left cost)
    (open_ : state.main ≠ .returned) :
    ∃ action next, step table search state action = some next := by
  have main := searching.main
  cases atMain : state.main with
  | creating i =>
      refine ⟨.main, ?_⟩
      unfold step htabSearchValue
      rw [atMain]
      dsimp only
      split
      · exact ⟨_, rfl⟩
      · exact ⟨_, rfl⟩
  | joining i =>
      rw [atMain] at main
      by_cases inside : i < NUM_THREADS
      · by_cases finished : state.points ⟨i, inside⟩ = .ended
        · refine ⟨.main, { state with main := .joining (i + 1) }, ?_⟩
          unfold step htabSearchValue
          rw [atMain]
          dsimp only
          rw [dif_pos inside, finished]
        · exact ⟨.thread ⟨i, inside⟩, thread_enabled table search (main.2.1 _) finished⟩
      · refine ⟨.main, { state with main := .returned }, ?_⟩
        unfold step htabSearchValue
        rw [atMain]
        dsimp only
        rw [dif_neg inside]
  | returned => exact absurd atMain open_

theorem Left.nil_of_ended {range : ThreadData} {items : List Address} {steps : Nat}
    (still : Left table chains range .ended items steps) : items = [] := by
  cases still
  rfl

theorem Searching.complete (searching : Searching table search chains state left cost)
    (returned : state.main = .returned) :
    state.printed.Perm (matching table search (allItems table chains)) := by
  have ended := searching.main
  rw [returned] at ended
  rw [List.perm_iff_count]
  intro key
  have counted := searching.counted key
  have nothing : tally (fun _ items => (matching table search items).count key) left = 0 := by
    apply tally_eq_zero
    intro thread
    have still := searching.threads thread
    rw [ended thread] at still
    rw [still.nil_of_ended]
    rfl
  omega

end Code

end Cab403.Workshops.ParallelSearch
