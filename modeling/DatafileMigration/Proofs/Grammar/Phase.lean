import Mathlib.Data.List.Induction
import Mathlib.Data.List.TakeWhile
import DatafileMigration.Datafile.Directive

namespace DatafileMigration.Grammar

open Datafile

/-- Descriptions, if any, and behind them a directive with the keyword. -/
inductive Leads (keyword : Text) : List Directive → Prop
  | here {d : Directive} {rest} : d.keyword = keyword → Leads keyword (d :: rest)
  | behind {d : Directive} {rest} : d.keyword = "DESCRIPTION" → Leads keyword rest →
      Leads keyword (d :: rest)

/-- There is a node, behind each name stands a query with no more than descriptions between them,
before each query stands a name in the same way, and the pipe is described once at most before its
first node. -/
structure NodeSequence (ds : List Directive) : Prop where
  nonempty : ∃ d ∈ ds, d.keyword = "NODE"
  answered : ∀ before (node : Directive) after, ds = before ++ node :: after →
    node.keyword = "NODE" → Leads "SQL" after
  asked : ∀ before (query : Directive) after, ds = before ++ query :: after →
    query.keyword = "SQL" → Leads "NODE" before.reverse
  header : (ds.takeWhile fun d : Directive => d.keyword ≠ "NODE").countP
    (fun d : Directive => d.keyword = "DESCRIPTION") ≤ 1

variable {d : Directive} {ds before after descriptions : List Directive} {keyword other : Text}

namespace Leads

theorem mem (leads : Leads keyword ds) : ∃ d ∈ ds, d.keyword = keyword := by
  induction leads with
  | here isHere => exact ⟨_, List.mem_cons_self, isHere⟩
  | behind _ _ ih =>
    obtain ⟨d, member, found⟩ := ih
    exact ⟨d, List.mem_cons_of_mem _ member, found⟩

theorem of_description (isDescription : d.keyword = "DESCRIPTION") (no : keyword ≠ "DESCRIPTION")
    (leads : Leads keyword (d :: ds)) : Leads keyword ds := by
  cases leads with
  | here isHere => exact absurd (isHere.symm.trans isDescription) no
  | behind _ leads => exact leads

theorem of_other (no : d.keyword ≠ "DESCRIPTION") (leads : Leads keyword (d :: ds)) :
    d.keyword = keyword := by
  cases leads with
  | here isHere => exact isHere
  | behind isDescription _ => exact absurd isDescription no

theorem of_append (all : ∀ e ∈ descriptions, e.keyword = "DESCRIPTION")
    (no : keyword ≠ "DESCRIPTION") (leads : Leads keyword (descriptions ++ ds)) :
    Leads keyword ds := by
  induction descriptions with
  | nil => exact leads
  | cons e descriptions ih =>
    rw [List.forall_mem_cons] at all
    exact ih all.2 (leads.of_description all.1 no)

theorem unique (leads : Leads keyword ds) (leads' : Leads other ds) (no : keyword ≠ "DESCRIPTION")
    (no' : other ≠ "DESCRIPTION") : keyword = other := by
  induction leads with
  | here isHere => exact isHere.symm.trans (leads'.of_other (isHere ▸ no))
  | behind isDescription _ ih => exact ih (leads'.of_description isDescription no')

/-- Where a directive leads backwards, it stands with descriptions behind it. -/
theorem split (leads : Leads keyword before.reverse) :
    ∃ rest, ∃ d : Directive, ∃ descriptions, before = rest ++ d :: descriptions ∧
      d.keyword = keyword ∧ ∀ e ∈ descriptions, e.keyword = "DESCRIPTION" := by
  generalize backwards : before.reverse = ds at leads
  induction leads generalizing before with
  | @here d rest isHere =>
    refine ⟨rest.reverse, d, [], ?_, isHere, List.forall_mem_nil _⟩
    rw [← List.reverse_cons, ← backwards, List.reverse_reverse]
  | @behind e rest isDescription _ ih =>
    obtain ⟨front, d, descriptions, whole, isHere, all⟩ := ih (List.reverse_reverse rest)
    refine ⟨front, d, descriptions ++ [e], ?_, isHere, ?_⟩
    · rw [← List.cons_append, ← List.append_assoc, ← whole, ← List.reverse_cons, ← backwards,
        List.reverse_reverse]
    · intro f member
      rcases List.mem_append.mp member with inside | last
      · exact all f inside
      · exact List.mem_singleton.mp last ▸ isDescription

end Leads

/-- How far a sequence of nodes is: before the description of the pipe, before the first node, in
a node, or behind one. -/
inductive Phase where
  | start
  | described
  | opened
  | closed
  deriving DecidableEq

namespace Phase

/-- The phase after a description, of the pipe or of a node. -/
def describe : Phase → Option Phase
  | start => some described
  | described => none
  | opened => some opened
  | closed => some closed

/-- The phase after a directive; none where the directive is out of place. -/
def read (phase : Phase) (d : Directive) : Option Phase :=
  if d.keyword = "NODE" then if phase = opened then none else some opened
  else if d.keyword = "SQL" then if phase = opened then some closed else none
  else if d.keyword = "DESCRIPTION" then phase.describe
  else none

variable {phase next : Phase}

theorem read_node (isNode : d.keyword = "NODE") :
    phase.read d = if phase = opened then none else some opened := if_pos isNode

theorem read_query (isQuery : d.keyword = "SQL") :
    phase.read d = if phase = opened then some closed else none := by
  have noNode : d.keyword ≠ "NODE" := isQuery ▸ by decide
  exact (if_neg noNode).trans (if_pos isQuery)

theorem read_description (isDescription : d.keyword = "DESCRIPTION") :
    phase.read d = phase.describe := by
  have noNode : d.keyword ≠ "NODE" := isDescription ▸ by decide
  have noQuery : d.keyword ≠ "SQL" := isDescription ▸ by decide
  exact (if_neg noNode).trans ((if_neg noQuery).trans (if_pos isDescription))

/-- All that a directive can do to a phase. -/
inductive Step : Phase → Directive → Phase → Prop
  | node {phase : Phase} {d : Directive} : d.keyword = "NODE" → phase ≠ opened → Step phase d opened
  | query {d : Directive} : d.keyword = "SQL" → Step opened d closed
  | header {d : Directive} : d.keyword = "DESCRIPTION" → Step start d described
  | description {phase : Phase} {d : Directive} : d.keyword = "DESCRIPTION" →
      phase = opened ∨ phase = closed → Step phase d phase

theorem step_of_read (step : phase.read d = some next) : phase.Step d next := by
  unfold read at step
  split at step
  · rename_i isNode
    split at step
    · cases step
    · obtain rfl := Option.some.inj step
      exact .node isNode ‹_›
  · split at step
    · rename_i isQuery
      split at step
      · rename_i inNode
        obtain rfl := Option.some.inj step
        exact inNode ▸ .query isQuery
      · cases step
    · split at step
      · rename_i isDescription
        cases phase with
        | start =>
          obtain rfl := Option.some.inj step
          exact .header isDescription
        | described => cases step
        | opened =>
          obtain rfl := Option.some.inj step
          exact .description isDescription (.inl rfl)
        | closed =>
          obtain rfl := Option.some.inj step
          exact .description isDescription (.inr rfl)
      · cases step

/-- What stands behind a reader in a phase. -/
inductive After : Phase → List Directive → Prop
  | start : After start []
  | described {d : Directive} : d.keyword = "DESCRIPTION" → After described [d]
  | opened {before : List Directive} : Leads "NODE" before.reverse → After opened before
  | closed {before : List Directive} : Leads "SQL" before.reverse → After closed before

theorem After.step (behind : phase.After before) (step : phase.Step d next) :
    next.After (before ++ [d]) := by
  have backwards : (before ++ [d]).reverse = d :: before.reverse := List.reverse_concat ..
  cases step with
  | node isNode _ => exact .opened (backwards ▸ .here isNode)
  | query isQuery => exact .closed (backwards ▸ .here isQuery)
  | header isDescription =>
    cases behind
    exact .described isDescription
  | description isDescription inside =>
    cases behind with
    | start => simp at inside
    | described => simp at inside
    | opened leads => exact .opened (backwards ▸ .behind isDescription leads)
    | closed leads => exact .closed (backwards ▸ .behind isDescription leads)

theorem after_run (run : before.foldlM read start = some phase) : phase.After before := by
  induction before using List.reverseRecOn generalizing phase with
  | nil =>
    obtain rfl := Option.some.inj run
    exact .start
  | append_singleton before d ih =>
    rw [List.foldlM_append] at run
    obtain ⟨middle, first, last⟩ := Option.bind_eq_some_iff.mp run
    obtain ⟨_, step, same⟩ := Option.bind_eq_some_iff.mp last
    obtain rfl := Option.some.inj same
    exact (ih first).step (step_of_read step)

theorem run_split (run : (before ++ d :: after).foldlM read phase = some next) :
    ∃ middle middle', before.foldlM read phase = some middle ∧ middle.Step d middle' ∧
      after.foldlM read middle' = some next := by
  rw [List.foldlM_append] at run
  obtain ⟨middle, first, last⟩ := Option.bind_eq_some_iff.mp run
  obtain ⟨middle', step, rest⟩ := Option.bind_eq_some_iff.mp last
  exact ⟨middle, middle', first, step_of_read step, rest⟩

/-- A node that is open comes to its query. -/
theorem leads_of_opened (run : after.foldlM read opened = some closed) : Leads "SQL" after := by
  induction after with
  | nil => cases run
  | cons d after ih =>
    rw [List.foldlM_cons] at run
    obtain ⟨middle, step, rest⟩ := Option.bind_eq_some_iff.mp run
    cases step_of_read step with
    | node _ no => exact absurd rfl no
    | query isQuery => exact .here isQuery
    | description isDescription _ => exact .behind isDescription (ih rest)

theorem nodeSequence_of_run (run : ds.foldlM read start = some closed) : NodeSequence ds := by
  have asked : ∀ before (query : Directive) after, ds = before ++ query :: after →
      query.keyword = "SQL" → Leads "NODE" before.reverse := by
    rintro before query after rfl isQuery
    obtain ⟨phase, _, first, step, _⟩ := run_split run
    cases step with
    | node isNode _ => exact absurd (isNode.symm.trans isQuery) (by decide)
    | query =>
      cases after_run first with
      | opened leads => exact leads
    | header isDescription => exact absurd (isDescription.symm.trans isQuery) (by decide)
    | description isDescription _ => exact absurd (isDescription.symm.trans isQuery) (by decide)
  have node_of_query : ∀ before after, ds = before ++ after → Leads "SQL" before.reverse →
      ∃ d ∈ before, d.keyword = "NODE" := by
    rintro before after rfl leads
    obtain ⟨rest, query, descriptions, rfl, isQuery, _⟩ := leads.split
    obtain ⟨node, member, isNode⟩ :=
      (asked rest query (descriptions ++ after) (by simp) isQuery).mem
    exact ⟨node, List.mem_append_left _ (List.mem_reverse.mp member), isNode⟩
  refine ⟨?_, ?_, asked, ?_⟩
  · cases after_run run with
    | closed leads => exact node_of_query ds [] (List.append_nil ds).symm leads
  · rintro before node after rfl isNode
    obtain ⟨_, phase, _, step, rest⟩ := run_split run
    cases step with
    | node => exact leads_of_opened rest
    | query isQuery => exact absurd (isNode.symm.trans isQuery) (by decide)
    | header isDescription => exact absurd (isNode.symm.trans isDescription) (by decide)
    | description isDescription _ => exact absurd (isNode.symm.trans isDescription) (by decide)
  · -- Before the first node the phases end with the description of the pipe.
    generalize front : (ds.takeWhile fun d : Directive => d.keyword ≠ "NODE") = before
    have noNode : ¬ ∃ d ∈ before, d.keyword = "NODE" := by
      rintro ⟨d, member, isNode⟩
      rw [← front] at member
      have outside := List.mem_takeWhile_imp member
      rw [decide_eq_true_eq] at outside
      exact outside isNode
    have isPrefix : before <+: ds := by
      rw [← front]
      exact List.takeWhile_prefix _
    obtain ⟨after, whole⟩ := isPrefix
    rw [← whole, List.foldlM_append] at run
    obtain ⟨phase, first, _⟩ := Option.bind_eq_some_iff.mp run
    cases after_run first with
    | start => exact Nat.zero_le 1
    | described isDescription => exact List.countP_le_length
    | opened leads =>
      obtain ⟨d, member, isNode⟩ := leads.mem
      exact absurd ⟨d, List.mem_reverse.mp member, isNode⟩ noNode
    | closed leads => exact absurd (node_of_query _ _ whole.symm leads) noNode

/-- A directive that belongs to a node, or to none. -/
def IsNodePart (d : Directive) : Prop :=
  d.keyword = "NODE" ∨ d.keyword = "DESCRIPTION" ∨ d.keyword = "SQL"

theorem step_of_nodeSequence (sequence : NodeSequence ds) (whole : ds = before ++ d :: after)
    (isPart : IsNodePart d) (behind : phase.After before) : ∃ next, phase.read d = some next := by
  rcases isPart with isNode | isDescription | isQuery
  · have closes : phase ≠ opened := by
      rintro rfl
      cases behind with
      | opened leads =>
        obtain ⟨rest, node, descriptions, rfl, open', all⟩ := leads.split
        have query := sequence.answered rest node (descriptions ++ d :: after)
          (by simpa using whole) open'
        have isQuery := (query.of_append all (by decide)).of_other (isNode ▸ by decide)
        exact absurd (isQuery.symm.trans isNode) (by decide)
    exact ⟨opened, (read_node isNode).trans (if_neg closes)⟩
  · rw [read_description isDescription]
    cases behind with
    | start => exact ⟨described, rfl⟩
    | @described first isFirst =>
      -- There are two descriptions in front of the first node.
      have apart : decide (("DESCRIPTION" : Text) ≠ "NODE") = true := by decide
      have once := sequence.header
      simp only [whole, List.singleton_append, List.takeWhile_cons, isFirst, isDescription, apart,
        if_true, List.countP_cons, decide_true] at once
      omega
    | opened => exact ⟨opened, rfl⟩
    | closed => exact ⟨closed, rfl⟩
  · have leads := sequence.asked before d after whole isQuery
    have inNode : phase = opened := by
      cases behind with
      | start => cases leads
      | described isDescription => cases leads.of_description isDescription (by decide)
      | opened => rfl
      | closed leads' => exact absurd (leads.unique leads' (by decide) (by decide)) (by decide)
    exact ⟨closed, (read_query isQuery).trans (if_pos inNode)⟩

theorem run_of_nodeSequence (sequence : NodeSequence ds) (parts : ∀ d ∈ ds, IsNodePart d) :
    ds.foldlM read start = some closed := by
  have runs (before : List Directive) : ∀ after, ds = before ++ after →
      ∃ phase, before.foldlM read start = some phase := by
    induction before using List.reverseRecOn with
    | nil => exact fun _ _ => ⟨start, rfl⟩
    | append_singleton before d ih =>
      intro after whole
      rw [List.append_assoc, List.singleton_append] at whole
      obtain ⟨phase, first⟩ := ih _ whole
      obtain ⟨next, step⟩ :=
        step_of_nodeSequence sequence whole (parts d (by simp [whole])) (after_run first)
      refine ⟨next, ?_⟩
      rw [List.foldlM_append, first]
      exact Option.bind_eq_some_iff.mpr ⟨phase, rfl, Option.bind_eq_some_iff.mpr ⟨next, step, rfl⟩⟩
  obtain ⟨phase, run⟩ := runs ds [] (List.append_nil ds).symm
  obtain ⟨node, member, isNode⟩ := sequence.nonempty
  cases after_run run with
  | start => cases member
  | described isDescription =>
    rw [List.mem_singleton.mp member] at isNode
    exact absurd (isNode.symm.trans isDescription) (by decide)
  | opened leads =>
    obtain ⟨rest, node, descriptions, whole, isNode, all⟩ := leads.split
    have query := sequence.answered rest node descriptions whole isNode
    rw [← List.append_nil descriptions] at query
    cases query.of_append all (by decide)
  | closed => exact run

/-- The phases of directives of nodes lead behind a node exactly if these are a sequence of
nodes. -/
theorem run_iff_nodeSequence (parts : ∀ d ∈ ds, IsNodePart d) :
    ds.foldlM read start = some closed ↔ NodeSequence ds :=
  ⟨nodeSequence_of_run, fun sequence => run_of_nodeSequence sequence parts⟩

end Phase

end DatafileMigration.Grammar
