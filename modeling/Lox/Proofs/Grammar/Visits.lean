import Lox.Proofs.Grammar.Progress
import Mathlib.Data.List.Chain

/-!
# The cursors that a reader comes by

A reader is a function of its cursor, so what happens while it reads is told apart from it: `Visits` lists the
cursors that a reader comes by, step by step, in the order of the steps. Whatever the reader, it goes
only forward and never past an end of input, opens no more constructs than the cap allows, and closes as
many as it has opened before it is done.
-/
namespace Lox.Grammar

variable {α β : Type} {cursor : Cursor}

/-! ### The course of a reading -/

/-- The cursor that a reader leaves, whatever its outcome. -/
def leaves (reader : Read α) (cursor : Cursor) : Cursor :=
  match reader cursor with
  | .ok _ after | .error _ after => after

namespace Cursor

/-- One more construct is open. -/
def opened (cursor : Cursor) : Cursor := { cursor with depth := cursor.depth + 1 }

/-- One construct less is open. -/
def closed (cursor : Cursor) : Cursor := { cursor with depth := cursor.depth - 1 }

/-- A construct that was opened is closed. -/
theorem closed_depth {last : Cursor} (depth : last.depth = cursor.opened.depth) :
    last.closed.depth = cursor.depth := by
  simp only [closed, depth, opened]
  exact Nat.add_sub_cancel _ _

/-- Some tokens are passed. -/
def ahead (cursor : Cursor) (count : Nat) : Cursor :=
  { cursor with rest := cursor.rest.drop count, position := cursor.position + count }

/-- Some tokens are passed, one after another. -/
def along (cursor : Cursor) : Nat → List Cursor
  | 0 => [cursor]
  | count + 1 => cursor :: (cursor.ahead 1).along count

end Cursor

/-- Passes the tokens before a likely statement border. -/
def skip (previous : Token) : Read Unit :=
  modify fun cursor => cursor.ahead (toBorder previous cursor.rest)

/-- Reports a refusal and passes on to a likely statement border. -/
def resume (error : StaticError) (token : Token) : Read (Option Stmt) := do
  report token error
  recover
  pure none

/-- The cursors that a reader comes by from a cursor on, with one rule for each way in which readers are
made. A construct is open between the first and the last of the cursors of `nested`. -/
inductive Visits : {α : Type} → Read α → Cursor → List Cursor → Prop
  | pure {α : Type} (result : α) (cursor : Cursor) : Visits (pure result) cursor [cursor]
  | throw {α : Type} (stop : Stop) (cursor : Cursor) : Visits (throw stop : Read α) cursor [cursor]
  | current (cursor : Cursor) : Visits current cursor [cursor]
  | advance (cursor : Cursor) : Visits advance cursor [cursor, leaves advance cursor]
  | report (token : Token) (error : StaticError) (cursor : Cursor) :
      Visits (report token error) cursor [cursor, leaves (report token error) cursor]
  | skip (previous : Token) (cursor : Cursor) :
      Visits (skip previous) cursor (cursor.along (toBorder previous cursor.rest))
  | discard {α : Type} {reader : Read α} {cursor : Cursor} {visits : List Cursor} :
      Visits reader cursor visits → Visits (discard reader : Read Unit) cursor visits
  | bindOk {α β : Type} {reader : Read α} {next : α → Read β} {cursor after : Cursor} {result : α}
      {front back : List Cursor} :
      reader cursor = .ok result after → Visits reader cursor front →
      Visits (next result) after back → Visits (reader >>= next) cursor (front ++ back)
  | bindError {α β : Type} {reader : Read α} {next : α → Read β} {cursor after : Cursor} {stop : Stop}
      {visits : List Cursor} :
      reader cursor = .error stop after → Visits reader cursor visits →
      Visits (reader >>= next) cursor visits
  | nested {α : Type} {construct : Nesting} {body : Read α} {cursor : Cursor} {visits : List Cursor} :
      cursor.depth < cursor.cap → Visits body cursor.opened visits →
      Visits (nested construct body) cursor (cursor :: visits ++ [(leaves body cursor.opened).closed])
  | full {α : Type} {construct : Nesting} {body : Read α} {cursor : Cursor} {visits : List Cursor} :
      cursor.cap ≤ cursor.depth → Visits (refuse (.tooDeep construct) : Read α) cursor visits →
      Visits (nested construct body) cursor visits
  | kept {body : Read Stmt} {cursor : Cursor} {visits : List Cursor} :
      (∀ error token after, body cursor ≠ .error (.refused error token) after) →
      Visits body cursor visits → Visits (recovering body) cursor visits
  | resumed {body : Read Stmt} {cursor after : Cursor} {error : StaticError} {token : Token}
      {front back : List Cursor} :
      body cursor = .error (.refused error token) after → Visits body cursor front →
      Visits (resume error token) after back → Visits (recovering body) cursor (front ++ back)
  /-- The bounds of a recursion are taken from where it starts. -/
  | bounded {α : Type} {reader : Nat → Nat → Read α} {cursor : Cursor} {visits : List Cursor} :
      Visits (reader (cursor.rest.length + 1) (cursor.cap - cursor.depth)) cursor visits →
      Visits (fun cursor => reader (cursor.rest.length + 1) (cursor.cap - cursor.depth) cursor)
        cursor visits

/-! ### Where a reader leaves its cursor -/

section

variable {reader : Read α} {after : Cursor}

theorem leaves_ok {result : α} (outcome : reader cursor = .ok result after) :
    leaves reader cursor = after := by
  unfold leaves
  rw [outcome]

theorem leaves_error {stop : Stop} (outcome : reader cursor = .error stop after) :
    leaves reader cursor = after := by
  unfold leaves
  rw [outcome]

@[simp] theorem leaves_current : leaves current cursor = cursor := by
  unfold leaves current
  cases cursor.rest <;> rfl

@[simp] theorem leaves_discard : leaves (discard reader : Read Unit) cursor = leaves reader cursor := by
  unfold leaves
  rw [discard_apply]
  cases reader cursor <;> rfl

theorem leaves_bind {next : α → Read β} {result : α} (outcome : reader cursor = .ok result after) :
    leaves (reader >>= next) cursor = leaves (next result) after := by
  unfold leaves
  rw [bind_ok outcome]

theorem leaves_bind_error {next : α → Read β} {stop : Stop}
    (outcome : reader cursor = .error stop after) :
    leaves (reader >>= next) cursor = leaves reader cursor := by
  rw [leaves_error outcome]
  apply leaves_error
  exact bind_eq_error.mpr (.inl outcome)

theorem leaves_nested {construct : Nesting} {body : Read α} (room : cursor.depth < cursor.cap) :
    leaves (nested construct body) cursor = (leaves body cursor.opened).closed := by
  unfold leaves nested Cursor.opened
  rw [if_neg (Nat.not_le.mpr room)]
  cases body { cursor with depth := cursor.depth + 1 } <;> rfl

theorem leaves_nested_full {construct : Nesting} {body : Read α} (full : cursor.cap ≤ cursor.depth) :
    leaves (nested construct body) cursor =
      leaves (refuse (.tooDeep construct) : Read α) cursor := by
  unfold leaves nested
  rw [if_pos full]

theorem leaves_recovering {body : Read Stmt}
    (kept : ∀ error token after, body cursor ≠ .error (.refused error token) after) :
    leaves (recovering body) cursor = leaves body cursor := by
  unfold leaves recovering
  cases outcome : body cursor with
  | ok result after => rfl
  | error stop after =>
    cases stop with
    | refused error token => exact absurd outcome (kept error token after)
    | overflow | exhausted => rfl

theorem leaves_resumed {body : Read Stmt} {error : StaticError} {token : Token}
    (outcome : body cursor = .error (.refused error token) after) :
    leaves (recovering body) cursor = leaves (resume error token) after := by
  unfold leaves recovering
  rw [outcome]
  rfl

end

/-! ### Going forward -/

/-- Some tokens are passed on the way from one cursor to another, but no end of input. -/
def Cursor.Passes (before after : Cursor) : Prop :=
  ∃ passed, before.rest = passed ++ after.rest ∧
    after.position = before.position + passed.length ∧ ∀ token ∈ passed, token.isEnd = false

namespace Cursor.Passes

variable {first second third : Cursor}

/-- Nothing is passed where only the depth or the reports change. -/
theorem still (rest : first.rest = second.rest) (position : second.position = first.position) :
    first.Passes second :=
  ⟨[], rest, position, by simp⟩

theorem trans (front : first.Passes second) (back : second.Passes third) : first.Passes third := by
  obtain ⟨passed, rest, position, inside⟩ := front
  obtain ⟨more, others, further, outside⟩ := back
  refine ⟨passed ++ more, ?_, ?_, ?_⟩
  · rw [rest, others, List.append_assoc]
  · rw [further, position, List.length_append, Nat.add_assoc]
  · intro token member
    exact (List.mem_append.mp member).elim (inside token) (outside token)

theorem next {token : Token} (here : first.rest = token :: second.rest)
    (position : second.position = first.position + 1) (inside : token.isEnd = false) :
    first.Passes second :=
  ⟨[token], here, position, by simpa using inside⟩

instance : Trans Cursor.Passes Cursor.Passes Cursor.Passes := ⟨trans⟩

end Cursor.Passes

/-- From its first to its last cursor a reading goes forward, with between as many constructs open as at
first and as many as the cap allows, and at last with as many open as at first. -/
structure Orderly (cursor : Cursor) (visits : List Cursor) (last : Cursor) : Prop where
  begins : visits.head? = some cursor
  arrives : visits.getLast? = some last
  depth : last.depth = cursor.depth
  cap : last.cap = cursor.cap
  low : ∀ visit ∈ visits, cursor.depth ≤ visit.depth
  high : ∀ visit ∈ visits, visit.depth ≤ cursor.cap
  onward : visits.IsChain Cursor.Passes

namespace Orderly

variable {first second middle last : Cursor} {visits more : List Cursor}

theorem single (fits : cursor.depth ≤ cursor.cap) : Orderly cursor [cursor] cursor where
  begins := rfl
  arrives := rfl
  depth := rfl
  cap := rfl
  low := by simp
  high := by simpa using fits
  onward := List.isChain_singleton cursor

/-- The cursor is reached from one before it with as many constructs open. -/
theorem cons (fits : first.depth ≤ first.cap) (passes : first.Passes second)
    (depth : second.depth = first.depth) (cap : second.cap = first.cap)
    (orderly : Orderly second visits last) : Orderly first (first :: visits) last where
  begins := rfl
  arrives := by rw [List.getLast?_cons, orderly.arrives]; rfl
  depth := orderly.depth.trans depth
  cap := orderly.cap.trans cap
  low visit member := by
    rcases List.mem_cons.mp member with rfl | later
    · exact Nat.le_refl _
    · exact depth ▸ orderly.low visit later
  high visit member := by
    rcases List.mem_cons.mp member with rfl | later
    · exact fits
    · exact cap ▸ orderly.high visit later
  onward := by
    refine List.isChain_cons.mpr ⟨?_, orderly.onward⟩
    intro visit head
    rw [orderly.begins] at head
    cases head
    exact passes

theorem append (front : Orderly first visits middle) (back : Orderly middle more last) :
    Orderly first (visits ++ more) last where
  begins := by rw [List.head?_append, front.begins]; rfl
  arrives := by rw [List.getLast?_append, back.arrives]; rfl
  depth := back.depth.trans front.depth
  cap := back.cap.trans front.cap
  low visit member := by
    rcases List.mem_append.mp member with before | after
    · exact front.low visit before
    · exact front.depth ▸ back.low visit after
  high visit member := by
    rcases List.mem_append.mp member with before | after
    · exact front.high visit before
    · exact front.cap ▸ back.high visit after
  onward := by
    refine List.isChain_append.mpr ⟨front.onward, back.onward, ?_⟩
    -- The second run begins at the cursor at which the first one ended.
    intro visit before later after
    rw [front.arrives] at before
    rw [back.begins] at after
    cases before
    cases after
    exact .still rfl rfl

/-- A construct is opened before and closed after. -/
theorem enclosed (room : cursor.depth < cursor.cap) (inner : Orderly cursor.opened visits last) :
    Orderly cursor (cursor :: visits ++ [last.closed]) last.closed where
  begins := rfl
  arrives := List.getLast?_concat
  depth := Cursor.closed_depth inner.depth
  cap := inner.cap
  low visit member := by
    have deeper := inner.low visit
    simp only [Cursor.opened] at deeper
    simp only [List.cons_append, List.mem_cons, List.mem_append, List.mem_nil_iff, or_false] at member
    rcases member with rfl | between | rfl
    · exact Nat.le_refl _
    · have := deeper between; omega
    · exact Nat.le_of_eq (Cursor.closed_depth inner.depth).symm
  high visit member := by
    simp only [List.cons_append, List.mem_cons, List.mem_append, List.mem_nil_iff, or_false] at member
    rcases member with rfl | between | rfl
    · omega
    · exact inner.high visit between
    · have same := Cursor.closed_depth inner.depth; omega
  onward := by
    rw [List.cons_append]
    refine List.isChain_cons.mpr ⟨?_, List.isChain_append.mpr ⟨inner.onward, .singleton _, ?_⟩⟩
    -- Opening and closing leave the cursor where it is.
    · intro visit head
      rw [List.head?_append, inner.begins] at head
      cases head
      exact .still rfl rfl
    · intro visit before later after
      rw [inner.arrives] at before
      cases before
      cases after
      exact .still rfl rfl

/-- Tokens that are no end of input are passed one after another. -/
theorem along (count : Nat) (fits : cursor.depth ≤ cursor.cap) (enough : count ≤ cursor.rest.length)
    (inside : ∀ token ∈ cursor.rest.take count, token.isEnd = false) :
    Orderly cursor (cursor.along count) (cursor.ahead count) := by
  -- The induction is on the tokens left to pass, from the cursor behind the first of them.
  induction count generalizing cursor with
  | zero => exact .single fits
  | succ count ih =>
    obtain ⟨token, rest, here⟩ := List.exists_cons_of_length_pos (Nat.zero_lt_of_lt enough)
    have further : (cursor.ahead 1).rest = rest := by simp [Cursor.ahead, here]
    have whole : (cursor.ahead 1).ahead count = cursor.ahead (count + 1) := by
      simp [Cursor.ahead, Nat.add_assoc, Nat.add_comm 1]
    rw [here] at enough inside
    have onward : Orderly (cursor.ahead 1) ((cursor.ahead 1).along count) (cursor.ahead (count + 1)) := by
      have room : (cursor.ahead 1).depth ≤ (cursor.ahead 1).cap := fits
      rw [← whole]
      apply ih room
      · rw [further]
        exact Nat.le_of_succ_le_succ enough
      · rw [further]
        exact fun token member => inside token (List.mem_cons_of_mem _ member)
    have step : cursor.Passes (cursor.ahead 1) :=
      .next (here.trans (by rw [further])) rfl (inside token List.mem_cons_self)
    exact .cons fits step rfl rfl onward

theorem pairwise (orderly : Orderly cursor visits last) : visits.Pairwise Cursor.Passes :=
  List.isChain_iff_pairwise.mp orderly.onward

theorem passes (orderly : Orderly cursor visits last) {visit : Cursor} (member : visit ∈ visits) :
    cursor.Passes visit := by
  obtain ⟨others, rfl⟩ := List.head?_eq_some_iff.mp orderly.begins
  rcases List.mem_cons.mp member with rfl | later
  · exact .still rfl rfl
  · exact (List.pairwise_cons.mp orderly.pairwise).1 visit later

end Orderly

/-- The one step that passes a token. -/
theorem advance_orderly (fits : cursor.depth ≤ cursor.cap) :
    Orderly cursor [cursor, leaves advance cursor] (leaves advance cursor) := by
  have passes : cursor.Passes (leaves advance cursor) ∧
      (leaves advance cursor).depth = cursor.depth ∧ (leaves advance cursor).cap = cursor.cap := by
    cases here : cursor.rest with
    | nil =>
      have outcome : advance cursor = .error .exhausted cursor := by simp only [advance, here]
      rw [leaves_error outcome]
      exact ⟨.still rfl rfl, rfl, rfl⟩
    | cons token rest =>
      cases last : token.isEnd with
      | true =>
        rw [leaves_ok (advance_apply_end here last)]
        exact ⟨.still rfl rfl, rfl, rfl⟩
      | false =>
        rw [leaves_ok (advance_apply here last)]
        exact ⟨.next here rfl last, rfl, rfl⟩
  obtain ⟨onward, depth, cap⟩ := passes
  refine .cons fits onward depth cap (.single ?_)
  rw [depth, cap]
  exact fits

theorem report_orderly {token : Token} {error : StaticError} (fits : cursor.depth ≤ cursor.cap) :
    Orderly cursor [cursor, leaves (report token error) cursor] (leaves (report token error) cursor) := by
  have step : cursor.Passes (leaves (report token error) cursor) := .still rfl rfl
  apply Orderly.cons fits step rfl rfl
  exact .single fits

/-- Whatever a reader comes by, it keeps to the order of the tokens and to the cap. -/
theorem Visits.orderly {reader : Read α} {visits : List Cursor} (course : Visits reader cursor visits)
    (fits : cursor.depth ≤ cursor.cap) : Orderly cursor visits (leaves reader cursor) := by
  -- Only `nested` changes the depth, and there the course of the body is enclosed. Elsewhere a course begins
  -- where the one before it ends, with as many constructs open.
  induction course with
  | pure | throw => exact .single fits
  | current cursor =>
    rw [leaves_current]
    exact .single fits
  | advance => exact advance_orderly fits
  | report => exact report_orderly fits
  | skip previous cursor =>
    exact .along _ fits (toBorder_le previous cursor.rest) (toBorder_inside previous cursor.rest)
  | discard _ ih =>
    rw [leaves_discard]
    exact ih fits
  | bindOk outcome _ _ front back =>
    have front := front fits
    rw [leaves_ok outcome] at front
    rw [leaves_bind outcome]
    exact front.append (back (by rw [front.depth, front.cap]; exact fits))
  | bindError outcome _ ih =>
    rw [leaves_bind_error outcome]
    exact ih fits
  | nested room _ ih =>
    rw [leaves_nested room]
    exact .enclosed room (ih room)
  | full full _ ih =>
    rw [leaves_nested_full full]
    exact ih fits
  | kept quiet _ ih =>
    rw [leaves_recovering quiet]
    exact ih fits
  | resumed outcome _ _ front back =>
    have front := front fits
    rw [leaves_error outcome] at front
    rw [leaves_resumed outcome]
    exact front.append (back (by rw [front.depth, front.cap]; exact fits))
  | bounded _ ih => exact ih fits

/-! ### Readers that have a course -/

/-- From every cursor on it is told what the reader comes by. -/
def Traced (reader : Read α) : Prop := ∀ cursor, ∃ visits, Visits reader cursor visits

namespace Traced

variable {reader : Read α} {next : α → Read β}

theorem pure {result : α} : Traced (pure result) := fun cursor => ⟨_, .pure result cursor⟩

theorem throw {stop : Stop} : Traced (throw stop : Read α) := fun cursor => ⟨_, .throw stop cursor⟩

theorem current : Traced current := fun cursor => ⟨_, .current cursor⟩

theorem advance : Traced advance := fun cursor => ⟨_, .advance cursor⟩

theorem report {token : Token} {error : StaticError} : Traced (report token error) :=
  fun cursor => ⟨_, .report token error cursor⟩

theorem skip {previous : Token} : Traced (skip previous) := fun cursor => ⟨_, .skip previous cursor⟩

theorem discard (traced : Traced reader) : Traced (discard reader : Read Unit) := by
  intro cursor
  obtain ⟨visits, course⟩ := traced cursor
  exact ⟨visits, .discard course⟩

theorem bind (first : Traced reader) (second : ∀ result, Traced (next result)) :
    Traced (reader >>= next) := by
  intro cursor
  obtain ⟨front, course⟩ := first cursor
  cases outcome : reader cursor with
  | ok result after =>
    obtain ⟨back, onward⟩ := second result after
    exact ⟨front ++ back, .bindOk outcome course onward⟩
  | error stop after => exact ⟨front, .bindError outcome course⟩

theorem choice {condition : Prop} [Decidable condition] {other : Read α} (yes : Traced reader)
    (no : Traced other) : Traced (if condition then reader else other) := by
  split
  · exact yes
  · exact no

theorem calling {levels stack : Nat} {body : Nat → Read α} (traced : ∀ left, Traced (body left)) :
    Traced (calling levels stack body) :=
  choice (traced _) throw

theorem refuse {error : StaticError} : Traced (refuse error : Read α) := .bind .current fun _ => .throw

theorem expect {text what : String} : Traced (expect text what) :=
  .bind .current fun _ => .choice .advance .refuse

theorem expectName {what : String} : Traced (expectName what) :=
  .bind .current fun _ => .choice .advance .refuse

theorem nested {construct : Nesting} (traced : Traced reader) : Traced (nested construct reader) := by
  intro cursor
  by_cases full : cursor.cap ≤ cursor.depth
  · obtain ⟨visits, course⟩ := refuse cursor
    exact ⟨visits, .full full course⟩
  · obtain ⟨visits, course⟩ := traced cursor.opened
    exact ⟨_, .nested (Nat.lt_of_not_le full) course⟩

theorem recover : Traced recover := .bind .advance fun _ => .bind .skip fun _ => .discard .current

theorem resume {error : StaticError} {token : Token} : Traced (resume error token) :=
  .bind .report fun _ => .bind .recover fun _ => .pure

theorem recovering {body : Read Stmt} (traced : Traced body) : Traced (recovering body) := by
  intro cursor
  obtain ⟨front, course⟩ := traced cursor
  by_cases refused : ∃ error token after, body cursor = .error (.refused error token) after
  · obtain ⟨error, token, after, outcome⟩ := refused
    obtain ⟨back, onward⟩ := resume after
    exact ⟨front ++ back, .resumed outcome course onward⟩
  · simp only [not_exists] at refused
    exact ⟨front, .kept refused course⟩

/-- The reader may be any of those that its bounds allow. -/
theorem bounded (bound : Nat → Nat → Read α) (traced : ∀ fuel room, Traced (bound fuel room)) :
    Traced (fun cursor => bound (cursor.rest.length + 1) (cursor.cap - cursor.depth) cursor) := by
  intro cursor
  obtain ⟨visits, course⟩ := traced (cursor.rest.length + 1) (cursor.cap - cursor.depth) cursor
  exact ⟨visits, .bounded course⟩

end Traced

end Lox.Grammar
