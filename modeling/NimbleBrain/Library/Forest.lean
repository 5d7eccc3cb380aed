import Mathlib.Data.List.Nodup
import Mathlib.Logic.Relation

/- Nodes that name their parents form a forest when each of them hangs from a top. -/

namespace NimbleBrain.Library

variable {Node : Type}

/-- A node hangs from a top by a chain that names it last. `parent` knows no other nodes. -/
inductive Rooted (parent : Node → Option (Option Node)) : Node → List Node → Prop
  | top (node : Node) (known : parent node = some none) : Rooted parent node [node]
  | inside (node above : Node) (nodes : List Node) (known : parent node = some (some above))
      (chain : Rooted parent above nodes) : Rooted parent node (nodes ++ [node])

namespace Rooted

variable {parent : Node → Option (Option Node)} {node : Node} {nodes : List Node}

theorem unique (chain : Rooted parent node nodes) {other : List Node} (same : Rooted parent node other) :
    nodes = other := by
  induction chain generalizing other with
  | top node known =>
      cases same with
      | top => rfl
      | inside _ above _ known' _ => cases known.symm.trans known'
  | inside node above nodes known _ ih =>
      cases same with
      | top _ known' => cases known.symm.trans known'
      | inside _ _ others known' chain' =>
          obtain rfl : above = _ := Option.some.inj (Option.some.inj (known.symm.trans known'))
          rw [ih chain']

/-- Each node of a chain is known, and hangs by a part of the chain. -/
theorem of_mem (chain : Rooted parent node nodes) {other : Node} (among : other ∈ nodes) :
    ∃ others, Rooted parent other others ∧ others.length ≤ nodes.length := by
  induction chain with
  | top node known =>
      rw [List.mem_singleton] at among
      exact ⟨[node], among ▸ .top node known, Nat.le_refl _⟩
  | inside node above nodes known chain ih =>
      rcases List.mem_append.mp among with earlier | last
      · obtain ⟨others, rooted, short⟩ := ih earlier
        refine ⟨others, rooted, Nat.le_trans short ?_⟩
        simp
      · rw [List.mem_singleton] at last
        exact ⟨nodes ++ [node], last ▸ .inside node above nodes known chain, Nat.le_refl _⟩

theorem known (chain : Rooted parent node nodes) : (parent node).isSome := by
  cases chain with
  | top _ known => rw [known]; rfl
  | inside _ _ _ known _ => rw [known]; rfl

/-- A chain never comes back to a node. -/
theorem nodup (chain : Rooted parent node nodes) : nodes.Nodup := by
  induction chain with
  | top node _ => exact List.nodup_singleton node
  | inside node above nodes known chain ih =>
      rw [List.nodup_append]
      refine ⟨ih, List.nodup_singleton node, ?_⟩
      intro first among other last same
      rw [List.mem_singleton.mp last] at same
      subst same
      obtain ⟨others, rooted, short⟩ := chain.of_mem among
      have long := congrArg List.length (rooted.unique (.inside first above nodes known chain))
      rw [List.length_append, List.length_singleton] at long
      omega

variable {next : Node → Option (Option Node)}

/-- A chain stays where its nodes keep their parents. -/
theorem kept (chain : Rooted parent node nodes) (same : ∀ other ∈ nodes, next other = parent other) :
    Rooted next node nodes := by
  induction chain with
  | top node known => exact .top node ((same node (List.mem_singleton_self node)).trans known)
  | inside node above nodes known chain ih =>
      refine .inside node above nodes ((same node ?_).trans known) ?_
      · simp
      · exact ih fun other among => same other (List.mem_append_left _ among)

/-- A set that takes in the children of its nodes takes in the lower end of a chain that meets it. -/
theorem outside (below : Node → Prop)
    (closed : ∀ child above, parent child = some (some above) → below above → below child)
    (chain : Rooted parent node nodes) (free : ¬ below node) : ∀ other ∈ nodes, ¬ below other := by
  induction chain with
  | top node _ =>
      intro other among
      rw [List.mem_singleton.mp among]
      exact free
  | inside node above nodes known _ ih =>
      intro other among
      rcases List.mem_append.mp among with earlier | last
      · exact ih (fun inside => free (closed node above known inside)) other earlier
      · rw [List.mem_singleton.mp last]
        exact free

/-- A node that moves under a place outside of what is below it keeps every node hanging. -/
theorem moved [DecidableEq Node] {moving : Node} {place : Option Node} {below : Node → Prop}
    (others : ∀ other, other ≠ moving → next other = parent other) (moves : next moving = some place)
    (closed : ∀ child above, parent child = some (some above) → below above → below child) (own : below moving)
    (hangs : ∀ above, place = some above → ¬ below above ∧ ∃ chain, Rooted parent above chain)
    (chain : Rooted parent node nodes) : ∃ chain, Rooted next node chain := by
  have still {other : Node} {chain : List Node} (rooted : Rooted parent other chain) (free : ¬ below other) :
      Rooted next other chain := by
    apply rooted.kept
    intro one among
    apply others one
    rintro rfl
    exact rooted.outside below closed free one among own
  have lands : ∃ chain, Rooted next moving chain := by
    cases place with
    | none => exact ⟨_, .top moving moves⟩
    | some above =>
        obtain ⟨free, chain, rooted⟩ := hangs above rfl
        exact ⟨_, .inside moving above chain moves (still rooted free)⟩
  induction chain with
  | top node known =>
      by_cases same : node = moving
      · exact same ▸ lands
      · exact ⟨_, .top node ((others node same).trans known)⟩
  | inside node above nodes known _ ih =>
      by_cases same : node = moving
      · exact same ▸ lands
      · obtain ⟨chain, rooted⟩ := ih
        exact ⟨_, .inside node above chain ((others node same).trans known) rooted⟩

end Rooted

/-- A search adds the children of a node that it has not seen, and looks at the last one first. -/
def addUnseen [DecidableEq Node] : List Node → List Node → List Node → List Node × List Node
  | [], stack, seen => (stack, seen)
  | child :: rest, stack, seen =>
      if child ∈ seen then addUnseen rest stack seen else addUnseen rest (child :: stack) (seen ++ [child])

/-- Everything below the nodes on the stack. Each round takes one node off the stack. -/
def searchBelow [DecidableEq Node] (children : Node → List Node) : Nat → List Node → List Node → List Node
  | 0, _, seen => seen
  | _ + 1, [], seen => seen
  | fuel + 1, node :: rest, seen =>
      let state := addUnseen (children node) rest seen
      searchBelow children fuel state.1 state.2

variable [DecidableEq Node]

/-- What is added is seen, and its children are still to be looked at. -/
structure Adds (children nodes stack seen : List Node) (state : List Node × List Node) : Prop where
  keeps : ∀ node ∈ seen, node ∈ state.2
  waits : ∀ node ∈ stack, node ∈ state.1
  adds : ∀ child ∈ children, child ∈ state.2
  fresh : ∀ node ∈ state.2, node ∈ seen ∨ node ∈ state.1
  measure : state.1.length + (nodes.filter (· ∉ state.2)).length ≤
    stack.length + (nodes.filter (· ∉ seen)).length

theorem addUnseen_adds {children nodes : List Node} (among : ∀ child ∈ children, child ∈ nodes)
    (stack seen : List Node) : Adds children nodes stack seen (addUnseen children stack seen) := by
  induction children generalizing stack seen with
  | nil =>
      exact {
        keeps := fun _ listed => listed
        waits := fun _ listed => listed
        adds := fun _ listed => nomatch listed
        fresh := fun _ listed => .inl listed
        measure := Nat.le_refl _ }
  | cons child rest ih =>
      have others : ∀ child ∈ rest, child ∈ nodes := fun other listed => among other (List.mem_cons_of_mem _ listed)
      rw [addUnseen]
      by_cases known : child ∈ seen
      · rw [if_pos known]
        have step := ih others stack seen
        refine ⟨step.keeps, step.waits, ?_, step.fresh, step.measure⟩
        intro other listed
        rcases List.mem_cons.mp listed with rfl | later
        · exact step.keeps other known
        · exact step.adds other later
      · rw [if_neg known]
        have step := ih others (child :: stack) (seen ++ [child])
        refine ⟨fun node listed => step.keeps node (List.mem_append_left _ listed),
          fun node listed => step.waits node (List.mem_cons_of_mem _ listed), ?_, ?_, ?_⟩
        · intro other listed
          rcases List.mem_cons.mp listed with rfl | later
          · exact step.keeps other (List.mem_append_right _ (List.mem_singleton_self other))
          · exact step.adds other later
        · intro node listed
          rcases step.fresh node listed with before | waits
          · rcases List.mem_append.mp before with earlier | new
            · exact .inl earlier
            · rw [List.mem_singleton.mp new]
              exact .inr (step.waits child List.mem_cons_self)
          · exact .inr waits
        · have less : (nodes.filter (· ∉ seen ++ [child])).length < (nodes.filter (· ∉ seen)).length := by
            have part : nodes.filter (· ∉ seen ++ [child]) = (nodes.filter (· ∉ seen)).filter (· ≠ child) := by
              rw [List.filter_filter]
              apply List.filter_congr
              intro node _
              simp [not_or, Bool.and_comm]
            rw [part]
            apply List.length_filter_lt_length_iff_exists.mpr
            exact ⟨child, List.mem_filter.mpr ⟨among child List.mem_cons_self, by simpa using known⟩, by simp⟩
          have total := step.measure
          rw [List.length_cons] at total
          omega

/-- With fuel enough the search ends in a set that takes in the children of its nodes. -/
theorem searchBelow_closed {children : Node → List Node} {nodes : List Node}
    (among : ∀ node, ∀ child ∈ children node, child ∈ nodes) {fuel : Nat} {stack seen : List Node}
    (enough : stack.length + (nodes.filter (· ∉ seen)).length ≤ fuel)
    (waits : ∀ node ∈ seen, node ∈ stack ∨ ∀ child ∈ children node, child ∈ seen) :
    (∀ node ∈ seen, node ∈ searchBelow children fuel stack seen) ∧
      ∀ node ∈ searchBelow children fuel stack seen, ∀ child ∈ children node,
        child ∈ searchBelow children fuel stack seen := by
  have done {seen : List Node} (waits : ∀ node ∈ seen, node ∈ [] ∨ ∀ child ∈ children node, child ∈ seen) :
      ∀ node ∈ seen, ∀ child ∈ children node, child ∈ seen := by
    intro node listed
    rcases waits node listed with empty | closed
    · cases empty
    · exact closed
  induction fuel generalizing stack seen with
  | zero =>
      obtain rfl : stack = [] := List.eq_nil_of_length_eq_zero (by omega)
      exact ⟨fun _ listed => listed, done waits⟩
  | succ fuel ih =>
      cases stack with
      | nil => exact ⟨fun _ listed => listed, done waits⟩
      | cons node rest =>
          have step := addUnseen_adds (among node) rest seen
          rw [searchBelow]
          generalize addUnseen (children node) rest seen = state at step ⊢
          have less : state.1.length + (nodes.filter (· ∉ state.2)).length ≤ fuel := by
            have total := step.measure
            rw [List.length_cons] at enough
            omega
          have next : ∀ other ∈ state.2, other ∈ state.1 ∨ ∀ child ∈ children other, child ∈ state.2 := by
            intro other listed
            rcases step.fresh other listed with before | new
            · rcases waits other before with onStack | finished
              · rcases List.mem_cons.mp onStack with rfl | later
                · exact .inr step.adds
                · exact .inl (step.waits other later)
              · exact .inr fun child own => step.keeps child (finished child own)
            · exact .inl new
          obtain ⟨keeps, closed⟩ := ih less next
          exact ⟨fun other listed => keeps other (step.keeps other listed), closed⟩

theorem mem_addUnseen {children stack seen : List Node} {node : Node} :
    (node ∈ (addUnseen children stack seen).1 → node ∈ stack ∨ node ∈ children) ∧
      (node ∈ (addUnseen children stack seen).2 → node ∈ seen ∨ node ∈ children) := by
  induction children generalizing stack seen with
  | nil => exact ⟨.inl, .inl⟩
  | cons child rest ih =>
      rw [addUnseen]
      split
      · obtain ⟨first, second⟩ := @ih stack seen
        exact ⟨fun member => (first member).imp_right (List.mem_cons_of_mem _),
          fun member => (second member).imp_right (List.mem_cons_of_mem _)⟩
      · obtain ⟨first, second⟩ := @ih (child :: stack) (seen ++ [child])
        constructor
        · intro member
          rcases first member with waits | later
          · exact (List.mem_cons.mp waits).elim (fun same => .inr (same ▸ List.mem_cons_self)) .inl
          · exact .inr (List.mem_cons_of_mem _ later)
        · intro member
          rcases second member with before | later
          · rcases List.mem_append.mp before with earlier | new
            · exact .inl earlier
            · obtain rfl := List.mem_singleton.mp new
              exact .inr List.mem_cons_self
          · exact .inr (List.mem_cons_of_mem _ later)

/-- A search finds only what is below its start. -/
theorem searchBelow_reached {children : Node → List Node} {start : Node} {fuel : Nat} {stack seen : List Node}
    (stacked : ∀ node ∈ stack, Relation.ReflTransGen (fun above below => below ∈ children above) start node)
    (reached : ∀ node ∈ seen, Relation.ReflTransGen (fun above below => below ∈ children above) start node) :
    ∀ node ∈ searchBelow children fuel stack seen,
      Relation.ReflTransGen (fun above below => below ∈ children above) start node := by
  induction fuel generalizing stack seen with
  | zero => exact reached
  | succ fuel ih =>
      cases stack with
      | nil => exact reached
      | cons node rest =>
          obtain ⟨own, others⟩ := List.forall_mem_cons.mp stacked
          apply ih
          · intro next member
            exact (mem_addUnseen.1 member).elim (others next) own.tail
          · intro next member
            exact (mem_addUnseen.2 member).elim (reached next) own.tail

end NimbleBrain.Library
