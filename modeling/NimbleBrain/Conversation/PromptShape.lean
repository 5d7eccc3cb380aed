import NimbleBrain.Conversation.Reconstruct

/- Replayed history is a prompt that a provider takes: every call has its result, and the roles alternate. -/

namespace NimbleBrain.Conversation

open Library

def StoredMessage.isTool (message : StoredMessage) : Bool := message.role = .tool

/-- The order of messages that the providers ask for. -/
structure ValidPrompt (messages : List StoredMessage) : Prop where
  answered : ∀ before message after, messages = before ++ message :: after → ∀ call ∈ message.calls,
    (after.takeWhile StoredMessage.isTool).countP (fun result => call ∈ result.answers) = 1
  follows : ∀ before message after, messages = before ++ message :: after → message.role = .tool →
    ∃ earlier assistant tools, before = earlier ++ assistant :: tools ∧ assistant.role = .assistant ∧
      (∀ tool ∈ tools, tool.role = .tool) ∧ ∀ call ∈ message.answers, call ∈ assistant.calls
  content : ∀ message ∈ messages, message.body ≠ .assistant []
  afterTool : ∀ before first second after, messages = before ++ first :: second :: after →
    second.role = .user → first.role ≠ .tool
  users : ∀ before first second after, messages = before ++ first :: second :: after →
    first.role = .user → second.role = .user → first.isOverlay = true ∧ second.isOverlay = true

/-- Each assistant message stands before the results of its calls, in their order. -/
inductive Grouped : List StoredMessage → Prop where
  | nil : Grouped []
  | user {message : StoredMessage} {rest : List StoredMessage} (role : message.role = .user)
      (later : Grouped rest) : Grouped (message :: rest)
  | turn {message : StoredMessage} {tools rest : List StoredMessage} (role : message.role = .assistant)
      (content : message.body ≠ .assistant []) (results : ∀ tool ∈ tools, tool.role = .tool)
      (answers : tools.map StoredMessage.answers = message.calls.map fun call => [call])
      (distinct : message.calls.Nodup) (later : Grouped rest) : Grouped (message :: (tools ++ rest))

namespace Grouped

variable {messages first second : List StoredMessage}

theorem append (one : Grouped first) (other : Grouped second) : Grouped (first ++ second) := by
  induction one with
  | nil => exact other
  | user role _ ih => exact .user role ih
  | turn role content results answers distinct _ ih =>
      rw [List.cons_append, List.append_assoc]
      exact .turn role content results answers distinct ih

theorem flatMap {A : Type} {items : List A} {emit : A → List StoredMessage}
    (each : ∀ item ∈ items, Grouped (emit item)) : Grouped (items.flatMap emit) := by
  induction items with
  | nil => exact .nil
  | cons item rest ih =>
      exact (each item (List.mem_cons_self ..)).append
        (ih fun other member => each other (List.mem_cons_of_mem _ member))

theorem users (roles : ∀ message ∈ messages, message.role = .user) : Grouped messages := by
  induction messages with
  | nil => exact .nil
  | cons message rest ih =>
      exact .user (roles _ (List.mem_cons_self ..)) (ih fun other member => roles _ (List.mem_cons_of_mem _ member))

variable {message : StoredMessage}

/-- A turn on its own. -/
theorem one {tools : List StoredMessage} (role : message.role = .assistant) (content : message.body ≠ .assistant [])
    (results : ∀ tool ∈ tools, tool.role = .tool)
    (answers : tools.map StoredMessage.answers = message.calls.map fun call => [call])
    (distinct : message.calls.Nodup) : Grouped (message :: tools) := by
  simpa using Grouped.turn role content results answers distinct .nil

/-- An assistant message without calls is a turn of its own. -/
theorem single (role : message.role = .assistant) (content : message.body ≠ .assistant [])
    (none : message.calls = []) : Grouped [message] :=
  .one role content (by simp) (by simp [none]) (by simp [none])

/-- A change that keeps the assistant messages and what the tool messages answer keeps the groups. -/
theorem map {change : StoredMessage → StoredMessage} (grouped : Grouped messages)
    (roles : ∀ message, (change message).role = message.role)
    (kept : ∀ message, message.role = .assistant → change message = message)
    (answers : ∀ message, (change message).answers = message.answers) : Grouped (messages.map change) := by
  induction grouped with
  | nil => exact .nil
  | user role _ ih => exact .user ((roles _).trans role) ih
  | turn role content results same distinct _ ih =>
      rw [List.map_cons, List.map_append, kept _ role]
      refine .turn role content ?_ ?_ distinct ih
      · intro tool member
        obtain ⟨original, found, rfl⟩ := List.mem_map.mp member
        exact (roles original).trans (results original found)
      · rw [List.map_map, ← same]
        exact List.map_congr_left fun message _ => answers message

/-- The last message may be replaced where it is an assistant message without calls. -/
theorem replace {last other : StoredMessage} (grouped : Grouped messages) (found : messages.getLast? = some last)
    (role : last.role = .assistant) (fresh : Grouped [other]) : Grouped (messages.dropLast ++ [other]) := by
  induction grouped with
  | nil => simp at found
  | @user message rest own later ih =>
      cases rest with
      | nil =>
          have same : message = last := by simpa using found
          rw [← same, own] at role
          cases role
      | cons next more =>
          rw [List.getLast?_cons_cons] at found
          exact .user own (ih found)
  | @turn message tools rest own content results answers distinct later ih =>
      cases rest with
      | nil =>
          rw [List.append_nil] at found ⊢
          cases tools with
          | nil => exact fresh
          | cons tool more =>
              have member : last ∈ tool :: more := by
                rw [List.getLast?_cons_cons] at found
                exact List.mem_of_getLast? found
              rw [results last member] at role
              cases role
      | cons next more =>
          have same : (message :: (tools ++ next :: more)).getLast? = (next :: more).getLast? := by
            rw [← List.cons_append, List.getLast?_append_of_ne_nil _ (by simp)]
          have init : (message :: (tools ++ next :: more)).dropLast = message :: (tools ++ (next :: more).dropLast) := by
            rw [← List.cons_append, List.dropLast_append_of_ne_nil (by simp), List.cons_append]
          rw [init, List.cons_append, List.append_assoc]
          exact .turn own content results answers distinct (ih (same ▸ found))

/-- No group starts with a result. -/
theorem takeWhile_isTool (grouped : Grouped messages) : messages.takeWhile StoredMessage.isTool = [] := by
  cases grouped with
  | nil => rfl
  | user role _ => simp [StoredMessage.isTool, role]
  | turn role _ _ _ _ _ => simp [StoredMessage.isTool, role]

end Grouped

theorem StoredMessage.calls_of_role {message : StoredMessage} (role : message.role ≠ .assistant) :
    message.calls = [] := by
  unfold calls
  split
  · rename_i found
    simp [StoredMessage.role, found] at role
  · rfl

theorem takeWhile_results {tools rest : List StoredMessage} (results : ∀ tool ∈ tools, tool.role = .tool)
    (later : Grouped rest) : (tools ++ rest).takeWhile StoredMessage.isTool = tools := by
  rw [List.takeWhile_append_of_pos fun tool member => by simpa [StoredMessage.isTool] using results tool member,
    later.takeWhile_isTool, List.append_nil]

variable {messages : List StoredMessage}

theorem Grouped.answered (grouped : Grouped messages) :
    ∀ before message after, messages = before ++ message :: after → ∀ call ∈ message.calls,
      (after.takeWhile StoredMessage.isTool).countP (fun result => call ∈ result.answers) = 1 := by
  induction grouped with
  | nil => simp
  | @user own rest role later ih =>
      intro before message after split call member
      rcases @split_append _ [own] _ _ _ _ split with ⟨after', same, -⟩ | ⟨earlier, -, same⟩
      · cases before <;> simp_all [StoredMessage.calls_of_role]
      · exact ih _ _ _ same call member
  | @turn own tools rest role content results answers distinct later ih =>
      intro before message after split call member
      rcases @split_append _ (own :: tools) _ _ _ _ split with ⟨after', same, rfl⟩ | ⟨earlier, -, same⟩
      · cases before with
        | nil =>
            obtain ⟨rfl, rfl⟩ := List.cons.inj same
            rw [takeWhile_results results later]
            have counted : tools.countP (fun result => decide (call ∈ result.answers)) =
                (tools.map StoredMessage.answers).countP fun ids => decide (call ∈ ids) := by
              rw [List.countP_map]
              rfl
            rw [counted, answers, List.countP_map, ← List.count_eq_one_of_mem distinct member]
            refine List.countP_congr fun id _ => ?_
            rw [Function.comp_apply, decide_eq_true_iff, List.mem_singleton, beq_iff_eq]
            exact eq_comm
        | cons first more =>
            obtain ⟨-, same⟩ := List.cons.inj same
            have tool := results message (by simp [same])
            rw [StoredMessage.calls_of_role (by simp [tool])] at member
            cases member
      · exact ih _ _ _ same call member

theorem Grouped.follows (grouped : Grouped messages) :
    ∀ before message after, messages = before ++ message :: after → message.role = .tool →
      ∃ earlier assistant tools, before = earlier ++ assistant :: tools ∧ assistant.role = .assistant ∧
        (∀ tool ∈ tools, tool.role = .tool) ∧ ∀ call ∈ message.answers, call ∈ assistant.calls := by
  induction grouped with
  | nil => simp
  | @user own rest role later ih =>
      intro before message after split tool
      rcases @split_append _ [own] _ _ _ _ split with ⟨after', same, -⟩ | ⟨earlier, rfl, same⟩
      · cases before <;> simp_all
      · obtain ⟨first, assistant, tools, rfl, fine⟩ := ih _ _ _ same tool
        exact ⟨own :: first, assistant, tools, rfl, fine⟩
  | @turn own tools rest role content results answers distinct later ih =>
      intro before message after split tool
      rcases @split_append _ (own :: tools) _ _ _ _ split with ⟨after', same, rfl⟩ | ⟨earlier, rfl, same⟩
      · cases before with
        | nil => simp_all
        | cons first more =>
            have inside : tools = more ++ message :: after' := (List.cons.inj same).2
            refine ⟨[], first, more, rfl, (List.cons.inj same).1 ▸ role, fun tool member => results tool ?_, ?_⟩
            · rw [inside]
              exact List.mem_append_left _ member
            · intro call member
              have listed : message.answers ∈ tools.map StoredMessage.answers := by
                rw [inside]
                exact List.mem_map_of_mem (List.mem_append_right _ (List.mem_cons_self ..))
              rw [answers] at listed
              obtain ⟨id, found, single⟩ := List.mem_map.mp listed
              rw [← single, List.mem_singleton] at member
              rw [member, ← (List.cons.inj same).1]
              exact found
      · obtain ⟨first, assistant, more, rfl, fine⟩ := ih _ _ _ same tool
        exact ⟨own :: (tools ++ first), assistant, more, by simp, fine⟩

theorem Grouped.content (grouped : Grouped messages) :
    ∀ message ∈ messages, message.body ≠ .assistant [] := by
  induction grouped with
  | nil => simp
  | user role _ ih =>
      intro message member
      rcases List.mem_cons.mp member with rfl | later
      · intro empty
        simp [StoredMessage.role, empty] at role
      · exact ih message later
  | turn role content results _ _ _ ih =>
      intro message member
      rcases List.mem_cons.mp member with rfl | member
      · exact content
      · rcases List.mem_append.mp member with result | later
        · intro empty
          have tool := results message result
          simp [StoredMessage.role, empty] at tool
        · exact ih message later

end NimbleBrain.Conversation
