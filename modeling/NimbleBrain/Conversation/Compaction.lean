import NimbleBrain.Conversation.Reconstruct

/- The oldest turns of a long conversation are folded into a summary. -/

namespace NimbleBrain.Conversation

structure CompactionOptions where
  budget : ℚ
  triggerRatio : ℚ := 7 / 10
  keepRatio : ℚ := 35 / 100
  minSummarizedMessages : Nat := 4
  retainedOperatorTurns : List RetainedOperatorMessage := []

/-- The messages before the index are folded. The time is that of the first message that is kept. -/
structure CompactionPlan where
  boundaryIndex : Nat
  boundaryTs : Timestamp
  deriving DecidableEq

-- The built-in writer of JSON gives the size of a content.
variable (stringify : Body → String)

/-- Four characters are about one token. -/
def estimateTokens (message : StoredMessage) : Nat := (textLength (stringify message.body) + 3) / 4

def estimateMessagesTokens (messages : List StoredMessage) : Nat :=
  (messages.map (estimateTokens stringify)).sum

/-- The walk goes back from the end until enough is kept. -/
def walkBack (keepTarget : ℚ) (messages : List StoredMessage) : Nat → Nat → Nat
  | 0, _ => 0
  | index + 1, kept =>
      let kept := kept + (messages[index]?.map (estimateTokens stringify)).getD 0
      if keepTarget ≤ kept then index else walkBack keepTarget messages index kept

/-- The nearest message of a user at or before the index. -/
def snapToUser (messages : List StoredMessage) : Nat → Nat
  | 0 => 0
  | index + 1 =>
      if messages[index + 1]?.any fun message => message.role = .user then index + 1
      else snapToUser messages index

def planCompaction (messages : List StoredMessage) (opts : CompactionOptions) : Option CompactionPlan :=
  match messages with
  | [] => none
  | _ :: _ =>
      if estimateMessagesTokens stringify messages ≤ opts.triggerRatio * opts.budget then none
      else
        let cut := walkBack stringify (opts.keepRatio * opts.budget) messages messages.length 0
        let boundaryIndex := snapToUser messages cut
        if boundaryIndex < opts.minSummarizedMessages then none
        else (messages[boundaryIndex]?).map fun message => ⟨boundaryIndex, message.timestamp⟩

/-- The messages to run with, and the event that was written. -/
structure Compacted where
  messages : List StoredMessage
  event : Option HistoryCompactedEvent
  deriving DecidableEq

/-- A summary that could not be made leaves the history as it is. -/
def compactConversationMessages (summarize : List StoredMessage → Option String) (messages : List StoredMessage)
    (opts : CompactionOptions) (now : Timestamp) : Compacted :=
  match planCompaction stringify messages opts with
  | none => ⟨messages, none⟩
  | some plan =>
      match summarize (messages.take plan.boundaryIndex) with
      | none => ⟨messages, none⟩
      | some summary =>
          let retained := selectRetainedOperatorMessages opts.retainedOperatorTurns plan.boundaryTs
          ⟨compactionSummaryMessages summary plan.boundaryTs retained ++ messages.drop plan.boundaryIndex,
            some
              { ts := now
                summary := summary
                compactedThroughTs := plan.boundaryTs
                summarizedMessageCount := plan.boundaryIndex }⟩

theorem snapToUser_spec (messages : List StoredMessage) (cut : Nat) :
    snapToUser messages cut ≤ cut ∧ (0 < snapToUser messages cut → ∃ message,
      messages[snapToUser messages cut]? = some message ∧ message.role = .user) := by
  induction cut with
  | zero => exact ⟨Nat.le_refl _, fun positive => absurd positive (Nat.lt_irrefl _)⟩
  | succ index ih =>
      rw [snapToUser]
      split
      · rename_i found
        obtain ⟨message, at', user⟩ := (Option.any_eq_true _ _).mp found
        exact ⟨Nat.le_refl _, fun _ => ⟨message, at', of_decide_eq_true user⟩⟩
      · exact ⟨ih.1.trans (Nat.le_succ _), ih.2⟩

/-- The fold starts what it keeps with a message of a user, or keeps everything. -/
theorem planCompaction_spec {messages : List StoredMessage} {opts : CompactionOptions} {plan : CompactionPlan}
    (planned : planCompaction stringify messages opts = some plan) :
    ∃ message, messages[plan.boundaryIndex]? = some message ∧ plan.boundaryTs = message.timestamp ∧
      (plan.boundaryIndex = 0 ∨ message.role = .user) := by
  unfold planCompaction at planned
  split at planned
  · cases planned
  · rename_i first rest
    split at planned
    · cases planned
    · dsimp only at planned
      split at planned
      · cases planned
      · obtain ⟨message, found, rfl⟩ := Option.map_eq_some_iff.mp planned
        refine ⟨message, found, rfl, ?_⟩
        rcases Nat.eq_zero_or_pos
          (snapToUser (first :: rest)
            (walkBack stringify (opts.keepRatio * opts.budget) (first :: rest) (first :: rest).length 0))
          with zero | positive
        · exact .inl zero
        · obtain ⟨other, same, user⟩ := (snapToUser_spec _ _).2 positive
          cases found.symm.trans same
          exact .inr user

end NimbleBrain.Conversation
