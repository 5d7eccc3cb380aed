import NimbleBrain.Identity.User

/- A record belongs to one subject while every write lands on a record that is still free. -/

namespace NimbleBrain.Identity.Oidc

open Library

section Statement

variable (host : OidcHost)

/-- The record is bound to the subject. -/
def Held (users : Users) (id subject : String) : Prop :=
  ∃ user, users.get? id = some user ∧ user.identity = some subject

/-- The records and the answers of the sign-ins agree on the subject of a record. -/
structure OneSubject (directory : Directory) : Prop where
  one : ∀ sub sub' id, .answered sub id ∈ directory.log → .answered sub' id ∈ directory.log → sub = sub'
  same : ∀ sub id id', .answered sub id ∈ directory.log → .answered sub id' ∈ directory.log → id = id'
  bound : ∀ id subject deleted, .bound id subject deleted ∈ directory.log → Held directory.users id subject
  stored : ∀ id subject, Held directory.users id subject → ∃ deleted, .bound id subject deleted ∈ directory.log
  emails : ∀ id user id' user', directory.users.get? id = some user → directory.users.get? id' = some user' →
    user.email = user'.email → id = id'
  active : ∀ id subject deleted, .bound id subject deleted ∈ directory.log → deleted = false

/-- The write finds the record as its call has read it, its email is free, and a sign-in binds an active record
without a subject when no other record is bound to its own. -/
def Lands (users : Users) (task : Task) (write : Write) : Prop :=
  users.get? write.written.id = write.read ∧
    (∀ entry ∈ users.entries, entry.1 ≠ write.written.id → entry.2.email ≠ write.written.email) ∧
      match task with
      | .signIn sub _ _ =>
          (∀ user ∈ write.read, user.identity = none ∧ user.deletedAt = none) ∧
            ∀ entry ∈ users.entries, entry.1 ≠ write.written.id → entry.2.identity ≠ some (subjectKey host sub)
      | .create .. | .update .. | .softDelete _ | .restore _ => True

def Call.Orderly (users : Users) : Call → Prop
  | ⟨task, .writing write⟩ => Lands host users task write
  | ⟨_, .reading⟩ | ⟨_, .resolving ..⟩ | ⟨_, .rereading _⟩ | ⟨_, .checking ..⟩ => True

def Orderly (directory : Directory) : Action → Prop
  | .next place _ => ∀ call ∈ directory.calls[place]?, call.Orderly host directory.users
  | .begin _ | .fail _ => True

instance (users : Users) (task : Task) (write : Write) : Decidable (Lands host users task write) := by
  unfold Lands
  cases task <;> infer_instance

instance (users : Users) (call : Call) : Decidable (call.Orderly host users) := by
  obtain ⟨task, phase⟩ := call
  cases phase <;> unfold Call.Orderly <;> infer_instance

instance (directory : Directory) (action : Action) : Decidable (Orderly host directory action) := by
  cases action <;> unfold Orderly <;> infer_instance

end Statement

section Names

variable {host : OidcHost}

variable {sub sub' : String}

theorem subjectKey_inj (same : subjectKey host sub = subjectKey host sub') : sub = sub' :=
  (String.append_right_inj _).mp same

theorem oidcUserId_inj (apart : Function.Injective host.digest) (same : oidcUserId host sub = oidcUserId host sub') :
    sub = sub' :=
  apart ((String.append_right_inj _).mp same)

theorem isProvisioned_oidcUserId (sub : String) : isProvisioned (oidcUserId host sub) = true := by
  rw [isProvisioned, oidcUserId, String.toList_append]
  exact List.isPrefixOf_iff_prefix.mpr (List.prefix_append _ _)

/-- A generated id is not derived from a subject. -/
theorem isProvisioned_generateUserId {hex : String} (digits : hex.toList.all isHexDigit = true) :
    isProvisioned (generateUserId hex) = false := by
  rw [isProvisioned, generateUserId, String.toList_append]
  cases letters : hex.toList with
  | nil => decide
  | cons letter rest =>
      rw [letters, List.all_cons, Bool.and_eq_true] at digits
      by_contra derived
      have first : letter = 'o' := by
        simp [OIDC_USER_ID_PREFIX, List.isPrefixOf] at derived
        exact derived.1.symm
      rw [first] at digits
      exact absurd digits.1 (by decide)

end Names

section Invariant

variable (host : OidcHost)

/-- The record of the derived id, if there is one, is bound to the subject. -/
def Derived (users : Users) (sub : String) : Prop :=
  ∀ user, users.get? (oidcUserId host sub) = some user → user.identity = some (subjectKey host sub)

/-- A record that was read is still there, with the subject that it had. -/
def Seen (users : Users) (read : User) : Prop :=
  ∃ user, users.get? read.id = some user ∧ ∀ subject ∈ read.identity, user.identity = some subject

structure Records (users : Users) (log : List Event) : Prop where
  keyed : ∀ id user, users.get? id = some user → user.id = id
  emails : ∀ id user id' user', users.get? id = some user → users.get? id' = some user' → user.email = user'.email →
    id = id'
  unique : ∀ subject id id', Held users id subject → Held users id' subject → id = id'
  derived : ∀ sub user, users.get? (oidcUserId host sub) = some user →
    user.identity = none ∨ user.identity = some (subjectKey host sub)
  only : ∀ sub user id, users.get? (oidcUserId host sub) = some user → Held users id (subjectKey host sub) →
    id = oidcUserId host sub
  bound : ∀ id subject deleted, .bound id subject deleted ∈ log → Held users id subject
  stored : ∀ id subject, Held users id subject → ∃ deleted, .bound id subject deleted ∈ log
  active : ∀ id subject deleted, .bound id subject deleted ∈ log → deleted = false
  answered : ∀ sub id, .answered sub id ∈ log → Held users id (subjectKey host sub)

/-- What the call of a write has made of the record. -/
inductive WriteSound (users : Users) : Task → Write → Prop where
  | binds (sub email displayName : String) (write : Write)
      (kept : ∀ user ∈ write.read, write.written.id = user.id ∧ write.written.deletedAt = user.deletedAt)
      (fresh : write.read = none → write.written.id = oidcUserId host sub ∧ write.written.deletedAt = none)
      (subject : write.written.identity = some (subjectKey host sub))
      (place : write.written.id = oidcUserId host sub ∨ Derived host users sub ∧ isProvisioned write.written.id = false) :
      WriteSound users (.signIn sub email displayName) write
  | creates (hex email displayName : String) (orgRole : OrgRole) (write : Write) (fresh : write.read = none)
      (generated : isProvisioned write.written.id = false) (unbound : write.written.identity = none) :
      WriteSound users (.create hex email displayName orgRole) write
  | edits (task : Task) (plain : ∀ sub email displayName, task ≠ .signIn sub email displayName) (write : Write)
      (user : User) (read : write.read = some user) (kept : write.written.id = user.id)
      (same : write.written.identity = user.identity) : WriteSound users task write

/-- What a call under way has read. -/
def CallSound (users : Users) : Call → Prop
  | ⟨task, .reading⟩ => task.valid = true
  | ⟨task, .resolving _ found⟩ => ∀ sub email displayName, task = .signIn sub email displayName →
      Derived host users sub ∧ ∀ user ∈ found, Seen users user
  | ⟨task, .rereading user⟩ => ∀ sub email displayName, task = .signIn sub email displayName →
      Seen users user ∧ (user.id = oidcUserId host sub ∨ Derived host users sub ∧ isProvisioned user.id = false)
  | ⟨task, .checking _ _ write⟩ | ⟨task, .writing write⟩ => WriteSound host users task write

structure Sound (directory : Directory) : Prop where
  records : Records host directory.users directory.log
  calls : ∀ call ∈ directory.calls, CallSound host directory.users call

variable {host} {users users' : Users} {log : List Event} {write : Write} {task : Task}

/-- Records stay, and keep their subjects. -/
structure Grows (users users' : Users) : Prop where
  kept : ∀ id user, users.get? id = some user →
    ∃ later, users'.get? id = some later ∧ ∀ subject ∈ user.identity, later.identity = some subject
  derived : ∀ sub, Derived host users sub → Derived host users' sub

theorem Grows.seen (grows : @Grows host users users') {read : User} (seen : Seen users read) : Seen users' read := by
  obtain ⟨user, found, subject⟩ := seen
  obtain ⟨later, found', kept⟩ := grows.kept _ user found
  exact ⟨later, found', fun name own => kept name (subject name own)⟩

theorem Grows.held (grows : @Grows host users users') {id subject : String} (held : Held users id subject) :
    Held users' id subject := by
  obtain ⟨user, found, bound⟩ := held
  obtain ⟨later, found', kept⟩ := grows.kept _ user found
  exact ⟨later, found', kept subject bound⟩

theorem Grows.writeSound (grows : @Grows host users users') (sound : WriteSound host users task write) :
    WriteSound host users' task write := by
  cases sound with
  | binds sub email displayName _ kept fresh subject place =>
      exact .binds sub email displayName _ kept fresh subject
        (place.imp_right fun other => ⟨grows.derived sub other.1, other.2⟩)
  | creates hex email displayName orgRole _ fresh generated unbound =>
      exact .creates hex email displayName orgRole _ fresh generated unbound
  | edits _ plain _ user read kept same => exact .edits _ plain _ user read kept same

theorem Grows.callSound (grows : @Grows host users users') {call : Call} (sound : CallSound host users call) :
    CallSound host users' call := by
  obtain ⟨task, phase⟩ := call
  cases phase with
  | reading => exact sound
  | resolving left found =>
      intro sub email displayName own
      obtain ⟨derived, seen⟩ := sound sub email displayName own
      exact ⟨grows.derived sub derived, fun user member => grows.seen (seen user member)⟩
  | rereading user =>
      intro sub email displayName own
      obtain ⟨seen, place⟩ := sound sub email displayName own
      exact ⟨grows.seen seen, place.imp_right fun other => ⟨grows.derived sub other.1, other.2⟩⟩
  | checking left found write => exact grows.writeSound sound
  | writing write => exact grows.writeSound sound

end Invariant

section Landing

variable {host : OidcHost} {users : Users} {log : List Event} {write : Write} {task : Task}

variable {id subject sub sub' displayName email : String} {user : User} {deleted : Bool}

/-- After a write a subject holds the written record or one that it held before. -/
theorem held_set : Held (users.set write.written.id write.written) id subject ↔
    id = write.written.id ∧ write.written.identity = some subject ∨ id ≠ write.written.id ∧ Held users id subject := by
  rw [Held, OrderedMap.get?_set]
  by_cases same : id = write.written.id
  · simp [same]
  · simp [same, Held]

/-- A write that lands keeps the subject of its record. -/
theorem Lands.keeps (lands : Lands host users task write) (sound : WriteSound host users task write)
    (found : users.get? write.written.id = some user) (own : user.identity = some subject) :
    write.written.identity = some subject := by
  have read : write.read = some user := lands.1.symm.trans found
  cases sound with
  | binds sub email displayName _ kept fresh bound place =>
      have free := (lands.2.2.1 user read).1
      rw [own] at free
      cases free
  | creates hex email displayName orgRole _ fresh generated unbound => cases read.symm.trans fresh
  | edits _ plain _ user' read' kept same =>
      obtain rfl := Option.some.inj (read'.symm.trans read)
      exact same.trans own

theorem Lands.grows (apart : Function.Injective host.digest) (lands : Lands host users task write)
    (sound : WriteSound host users task write) :
    @Grows host users (users.set write.written.id write.written) := by
  constructor
  · intro id user found
    rw [OrderedMap.get?_set]
    by_cases same : id = write.written.id
    · subst same
      exact ⟨write.written, if_pos rfl, fun subject own => lands.keeps sound found own⟩
    · exact ⟨user, by rw [if_neg same, found], fun subject own => own⟩
  · intro sub derived user found
    rw [OrderedMap.get?_set] at found
    split at found
    · next same =>
        obtain rfl := Option.some.inj found
        cases sound with
        | binds sub' email displayName _ kept fresh bound place =>
            rcases place with own | ⟨-, other⟩
            · rw [oidcUserId_inj apart (same.trans own)]
              exact bound
            · rw [← same, isProvisioned_oidcUserId] at other
              cases other
        | creates hex email displayName orgRole _ fresh generated unbound =>
            rw [← same, isProvisioned_oidcUserId] at generated
            cases generated
        | edits _ plain _ user read kept identity =>
            rw [identity]
            exact derived user (by rw [same, lands.1, read])
    · exact derived user found

theorem answer_eq (same : .answered sub id = answer sub' user) :
    sub = sub' ∧ id = user.id := by
  rw [answer] at same
  split at same
  · cases same
  · cases same
    exact ⟨rfl, rfl⟩

theorem answer_ne_bound :
    Event.bound id subject deleted ≠ answer sub user := by
  rw [answer]
  split
  · exact nofun
  · exact nofun

theorem written_of_plain (plain : ∀ sub email displayName, task ≠ .signIn sub email displayName) :
    written host users write task = [] := by
  cases task with
  | signIn sub email displayName => exact absurd rfl (plain sub email displayName)
  | create | update | softDelete | restore => rfl

theorem bound_of_written
    (listed : .bound id subject deleted ∈ written host users write (.signIn sub email displayName)) :
    id = write.written.id ∧ subject = subjectKey host sub ∧
      deleted = (users.get? write.written.id).any (·.deletedAt.isSome) := by
  rcases List.mem_cons.mp listed with same | later
  · exact absurd same answer_ne_bound
  · cases List.mem_singleton.mp later
    exact ⟨rfl, rfl, rfl⟩

theorem answered_of_written (listed : .answered sub id ∈ written host users write (.signIn sub' email displayName)) :
    sub = sub' ∧ id = write.written.id := by
  rcases List.mem_cons.mp listed with same | later
  · exact answer_eq same
  · cases List.mem_singleton.mp later

/-- The records stay sound when a write lands. -/
theorem Records.land (apart : Function.Injective host.digest) (records : Records host users log)
    (sound : WriteSound host users task write) (lands : Lands host users task write) :
    Records host (users.set write.written.id write.written) (written host users write task ++ log) := by
  have grows := lands.grows apart sound
  obtain ⟨read, emails, subjects⟩ := id lands
  have other {id : String} {user : User} (found : users.get? id = some user) (apart : id ≠ write.written.id) :
      user.email ≠ write.written.email := emails (id, user) (OrderedMap.get?_eq_some_iff.mp found) apart
  constructor
  · intro id user found
    rw [OrderedMap.get?_set] at found
    split at found
    · next same => rw [same, ← Option.some.inj found]
    · exact records.keyed id user found
  · intro id user id' user' found found' same
    rw [OrderedMap.get?_set] at found found'
    split at found <;> split at found'
    · next own own' => exact own.trans own'.symm
    · next own apart =>
        obtain rfl := Option.some.inj found
        exact absurd same.symm (other found' apart)
    · next apart own =>
        obtain rfl := Option.some.inj found'
        exact absurd same (other found apart)
    · exact records.emails id user id' user' found found' same
  · intro subject id id' held held'
    have alone {id : String} (written : write.written.identity = some subject) (foreign : id ≠ write.written.id)
        (held : Held users id subject) : False := by
      cases sound with
      | binds sub email displayName _ kept fresh bound place =>
          obtain ⟨user, found, own⟩ := held
          exact subjects.2 (id, user) (OrderedMap.get?_eq_some_iff.mp found) foreign
            (own.trans (written.symm.trans bound))
      | creates hex email displayName orgRole _ fresh generated unbound => cases unbound.symm.trans written
      | edits _ plain _ user read' kept identity =>
          exact foreign (records.unique subject id _ held ⟨user, read.trans read', identity.symm.trans written⟩)
    rcases held_set.mp held with ⟨rfl, own⟩ | ⟨foreign, old⟩ <;>
      rcases held_set.mp held' with ⟨rfl, own'⟩ | ⟨foreign', old'⟩
    · rfl
    · exact (alone own foreign' old').elim
    · exact (alone own' foreign old).elim
    · exact records.unique subject id id' old old'
  · intro sub user found
    rw [OrderedMap.get?_set] at found
    split at found
    · next same =>
        obtain rfl := Option.some.inj found
        cases sound with
        | binds sub' email displayName _ kept fresh bound place =>
            rcases place with own | ⟨-, plain⟩
            · rw [oidcUserId_inj apart (same.trans own)]
              exact .inr bound
            · rw [← same, isProvisioned_oidcUserId] at plain
              cases plain
        | creates hex email displayName orgRole _ fresh generated unbound => exact .inl unbound
        | edits _ plain _ user read' kept identity =>
            rw [identity]
            exact records.derived sub user (by rw [same, read, read'])
    · exact records.derived sub user found
  · intro sub user id found held
    rw [OrderedMap.get?_set] at found
    rcases held_set.mp held with ⟨rfl, own⟩ | ⟨foreign, old⟩
    · by_contra elsewhere
      rw [if_neg fun same => elsewhere same.symm] at found
      cases sound with
      | binds sub' email displayName _ kept fresh bound place =>
          obtain rfl := subjectKey_inj (Option.some.inj (bound.symm.trans own))
          rcases place with own | ⟨derived, -⟩
          · exact elsewhere own
          · exact subjects.2 (_, user) (OrderedMap.get?_eq_some_iff.mp found) (fun same => elsewhere same.symm)
              (derived user found)
      | creates hex email displayName orgRole _ fresh generated unbound => cases unbound.symm.trans own
      | edits _ plain _ user' read' kept identity =>
          exact elsewhere (records.only sub user _ found ⟨user', read.trans read', identity.symm.trans own⟩)
    · split at found
      · next same =>
          cases before : write.read with
          | some user' => exact records.only sub user' id (by rw [same, read, before]) old
          | none =>
              cases sound with
              | binds sub' email displayName _ kept fresh bound place =>
                  obtain rfl := oidcUserId_inj apart (same.trans (fresh before).1)
                  obtain ⟨user', found', own⟩ := old
                  exact absurd own (subjects.2 (id, user') (OrderedMap.get?_eq_some_iff.mp found') foreign)
              | creates hex email displayName orgRole _ fresh generated unbound =>
                  rw [← same, isProvisioned_oidcUserId] at generated
                  cases generated
              | edits _ plain _ user' read' kept identity => cases before.symm.trans read'
      · exact records.only sub user id found old
  · intro id subject deleted listed
    rcases List.mem_append.mp listed with new | old
    · cases sound with
      | binds sub email displayName _ kept fresh bound place =>
          obtain ⟨rfl, rfl, -⟩ := bound_of_written new
          exact ⟨write.written, OrderedMap.get?_set_self _ _, bound⟩
      | creates hex email displayName orgRole _ fresh generated unbound => cases new
      | edits _ plain _ user read' kept identity =>
          rw [written_of_plain plain] at new
          cases new
    · exact grows.held (records.bound id subject deleted old)
  · intro id subject held
    rcases held_set.mp held with ⟨rfl, own⟩ | ⟨foreign, old⟩
    · cases sound with
      | binds sub email displayName _ kept fresh bound place =>
          obtain rfl := Option.some.inj (bound.symm.trans own)
          exact ⟨_, List.mem_append_left _ (List.mem_cons_of_mem _ List.mem_cons_self)⟩
      | creates hex email displayName orgRole _ fresh generated unbound => cases unbound.symm.trans own
      | edits _ plain _ user read' kept identity =>
          obtain ⟨deleted, listed⟩ := records.stored _ subject ⟨user, read.trans read', identity.symm.trans own⟩
          exact ⟨deleted, List.mem_append_right _ listed⟩
    · obtain ⟨deleted, listed⟩ := records.stored id subject old
      exact ⟨deleted, List.mem_append_right _ listed⟩
  · intro id subject deleted listed
    rcases List.mem_append.mp listed with new | old
    · cases sound with
      | binds sub email displayName _ kept fresh bound place =>
          obtain ⟨-, -, rfl⟩ := bound_of_written new
          rw [read]
          cases before : write.read with
          | none => rfl
          | some user => simp [(subjects.1 user before).2]
      | creates hex email displayName orgRole _ fresh generated unbound => cases new
      | edits _ plain _ user read' kept identity =>
          rw [written_of_plain plain] at new
          cases new
    · exact records.active id subject deleted old
  · intro sub id listed
    rcases List.mem_append.mp listed with new | old
    · cases sound with
      | binds sub' email displayName _ kept fresh bound place =>
          obtain ⟨rfl, rfl⟩ := answered_of_written new
          exact ⟨write.written, OrderedMap.get?_set_self _ _, bound⟩
      | creates hex email displayName orgRole _ fresh generated unbound => cases new
      | edits _ plain _ user read' kept identity =>
          rw [written_of_plain plain] at new
          cases new
    · exact grows.held (records.answered sub id old)

end Landing

section Advance

variable {host : OidcHost} {users : Users} {log : List Event} {task : Task} {oracle : Oracle}

/-- What an outcome leaves behind. -/
def OutcomeSound (users : Users) (task : Task) : Outcome → Prop
  | .goes phase => CallSound host users ⟨task, phase⟩
  | .ends event => (∀ sub id, event = some (.answered sub id) → Held users id (subjectKey host sub)) ∧
      ∀ id subject deleted, event ≠ some (.bound id subject deleted)
  | .stuck => True

variable {sub displayName email : String} {user : User}

theorem ends_answer (held : user.deletedAt = none → Held users user.id (subjectKey host sub)) :
    @OutcomeSound host users task (.ends (some (answer sub user))) := by
  constructor
  · intro sub' id same
    have same := Option.some.inj same
    obtain ⟨rfl, rfl⟩ := answer_eq same.symm
    apply held
    rw [answer] at same
    split at same
    · cases same
    · next active => exact Option.not_isSome_iff_eq_none.mp active
  · exact fun id subject deleted same => answer_ne_bound (Option.some.inj same).symm

theorem ends_refused (sub : String) : @OutcomeSound host users task (.ends (some (.refused sub))) := ⟨nofun, nofun⟩

theorem ends_none : @OutcomeSound host users task (.ends none) := ⟨nofun, nofun⟩

theorem claim_sound (seen : Seen users user)
    (place : user.id = oidcUserId host sub ∨ Derived host users sub ∧ isProvisioned user.id = false) :
    @OutcomeSound host users (.signIn sub email displayName) (claim host sub user) := by
  rw [claim]
  split
  · next own =>
      apply ends_answer
      intro _
      obtain ⟨later, found, kept⟩ := seen
      exact ⟨later, found, kept _ own⟩
  · split
    · exact ends_refused sub
    · split
      · next deleted =>
          apply ends_answer
          intro active
          rw [active] at deleted
          cases deleted
      · intro sub' email' displayName' same
        cases same
        exact ⟨seen, place⟩

theorem Records.seen (records : Records host users log) {id : String} (found : users.get? id = some user) :
    Seen users user := by
  refine ⟨user, ?_, fun _ own => own⟩
  rw [records.keyed id user found]
  exact found

theorem readFirst_sound (records : Records host users log) (valid : task.valid = true) :
    @OutcomeSound host users task (readFirst host users oracle task) := by
  cases task with
  | signIn sub email displayName =>
      rw [readFirst]
      split
      · next byId found => exact claim_sound (records.seen found) (.inl (records.keyed _ byId found))
      · next absent =>
          intro sub' email' displayName' same
          cases same
          refine ⟨fun user found => ?_, fun _ member => nomatch member⟩
          cases absent.symm.trans found
  | create hex email displayName orgRole => exact trivial
  | update id patch =>
      have unbound : patch.identity = none := Option.isNone_iff_eq_none.mp valid
      rw [readFirst]
      split
      · exact ends_none
      · next user found =>
          have sound : WriteSound host users (.update id patch) ⟨some user, user.patched patch oracle.now⟩ :=
            .edits _ (fun _ _ _ same => by cases same) _ user rfl rfl (by rw [User.patched, unbound, Option.none_or])
          split
          · exact sound
          · exact sound
  | softDelete id =>
      rw [readFirst]
      split
      · exact ends_none
      · next write made =>
          obtain ⟨user, found, made⟩ := Option.bind_eq_some_iff.mp made
          obtain ⟨written, edited, rfl⟩ := Option.map_eq_some_iff.mp made
          rw [User.softDelete] at edited
          split at edited
          · cases edited
          · cases edited
            exact .edits _ (fun _ _ _ same => by cases same) _ user rfl rfl rfl
  | restore id =>
      rw [readFirst]
      split
      · exact ends_none
      · next write made =>
          obtain ⟨user, found, made⟩ := Option.bind_eq_some_iff.mp made
          obtain ⟨written, edited, rfl⟩ := Option.map_eq_some_iff.mp made
          rw [User.restore] at edited
          split at edited
          · cases edited
            exact .edits _ (fun _ _ _ same => by cases same) _ user rfl rfl rfl
          · cases edited

theorem resolve_sound {all : List User} (derived : Derived host users sub) (seen : ∀ user ∈ all, Seen users user) :
    @OutcomeSound host users (.signIn sub email displayName) (resolve host sub email displayName all) := by
  rw [resolve]
  split
  · next bound found =>
      apply ends_answer
      intro _
      obtain ⟨later, found', kept⟩ := seen bound (List.mem_of_find?_eq_some found)
      exact ⟨later, found', kept _ (by simpa using List.find?_some found)⟩
  · split
    · next byEmail found =>
        split
        · exact ends_refused sub
        · next plain =>
            exact claim_sound (seen byEmail (List.mem_of_find?_eq_some found))
              (.inr ⟨derived, Bool.not_eq_true _ |>.mp plain⟩)
    · exact .binds sub email displayName _ nofun (fun _ => ⟨rfl, rfl⟩) rfl (.inl rfl)

theorem reread_sound (records : Records host users log) (sound : CallSound host users ⟨task, .rereading user⟩) :
    @OutcomeSound host users task (reread host users oracle user task) := by
  cases task with
  | signIn sub email displayName =>
      obtain ⟨⟨later, present, -⟩, place⟩ := sound sub email displayName rfl
      rw [reread]
      split
      · next absent => cases absent.symm.trans present
      · next fresh found =>
          have named := records.keyed _ fresh found
          refine .binds sub email displayName _ ?_ nofun rfl (by rw [User.patched, named]; exact place)
          intro read same
          cases same
          exact ⟨rfl, rfl⟩
  | create | update | softDelete | restore => exact trivial

theorem WriteSound.stamp {write : Write} (sound : WriteSound host users task write) (now : Nat) :
    WriteSound host users task (write.stamp now) := by
  obtain ⟨read, written⟩ := write
  cases sound with
  | binds sub email displayName _ kept fresh bound place =>
      cases read with
      | none => exact .binds sub email displayName _ nofun fresh bound place
      | some user => exact .binds sub email displayName _ kept nofun bound place
  | creates hex email displayName orgRole _ fresh generated unbound =>
      cases fresh
      exact .creates hex email displayName orgRole _ rfl generated unbound
  | edits _ plain _ user read kept same =>
      cases read
      exact .edits _ plain _ user rfl kept same

theorem listNext_sound {left : Option (List String)} {found : List User} {goes : Option (List String) → List User → Phase}
    {complete : List User → Outcome}
    (more : ∀ left later, (later = [] ∨ later = found ∨ ∃ id user, users.get? id = some user ∧ later = found ++ [user]) →
      CallSound host users ⟨task, goes left later⟩)
    (ends : @OutcomeSound host users task (complete (listed found))) :
    @OutcomeSound host users task (listNext users oracle left found goes complete) := by
  unfold listNext
  split
  · split
    · exact more _ _ (.inl rfl)
    · exact trivial
  · next id rest =>
      split
      · exact more _ _ (.inr (.inl rfl))
      · cases present : users.get? id with
        | none => exact more _ _ (.inr (.inl (List.append_nil _)))
        | some user => exact more _ _ (.inr (.inr ⟨id, user, present, rfl⟩))
  · exact ends

theorem advance_sound (oracle : Oracle) (records : Records host users log) {call : Call} (sound : CallSound host users call) :
    @OutcomeSound host users call.task (advance host users oracle call) := by
  obtain ⟨task, phase⟩ := call
  cases phase with
  | reading => exact readFirst_sound records sound
  | resolving left found =>
      cases task with
      | signIn sub email displayName =>
          obtain ⟨derived, seen⟩ := sound sub email displayName rfl
          refine listNext_sound ?_ (resolve_sound derived fun user member => seen user (mem_listed.mp member))
          intro left later read sub' email' displayName' same
          cases same
          refine ⟨derived, ?_⟩
          rcases read with rfl | rfl | ⟨id, user, present, rfl⟩
          · exact fun _ member => nomatch member
          · exact seen
          · exact List.forall_mem_append.mpr ⟨seen, List.forall_mem_singleton.mpr (records.seen present)⟩
      | create | update | softDelete | restore => exact trivial
  | rereading user => exact reread_sound records sound
  | checking left found write =>
      change OutcomeSound users task (listNext users oracle left found (.checking · · write) (check oracle write task))
      refine listNext_sound ?_ ?_
      · exact fun _ _ _ => sound
      unfold check
      split
      · cases task with
        | signIn sub email displayName => exact ends_refused sub
        | create | update | softDelete | restore => exact ends_none
      · exact WriteSound.stamp sound oracle.now
  | writing write => exact trivial

end Advance

variable {host : OidcHost} {directory after : Directory}

variable {users : Users} {place : Nat} {task : Task}

theorem Records.log_cons {log : List Event} (records : Records host users log) {event : Event}
    (answered : ∀ sub id, event = .answered sub id → Held users id (subjectKey host sub))
    (plain : ∀ id subject deleted, event ≠ .bound id subject deleted) : Records host users (event :: log) where
  keyed := records.keyed
  emails := records.emails
  unique := records.unique
  derived := records.derived
  only := records.only
  bound := fun id subject deleted listed => by
    rcases List.mem_cons.mp listed with same | old
    · exact absurd same.symm (plain id subject deleted)
    · exact records.bound id subject deleted old
  stored := fun id subject held => (records.stored id subject held).imp fun _ => List.mem_cons_of_mem _
  active := fun id subject deleted listed => by
    rcases List.mem_cons.mp listed with same | old
    · exact absurd same.symm (plain id subject deleted)
    · exact records.active id subject deleted old
  answered := fun sub id listed => by
    rcases List.mem_cons.mp listed with same | old
    · exact answered sub id same.symm
    · exact records.answered sub id old

theorem Sound.land (apart : Function.Injective host.digest) (sound : Sound host directory) {write : Write}
    (found : directory.calls[place]? = some ⟨task, .writing write⟩) (lands : Lands host directory.users task write) :
    Sound host (directory.land host place task write) := by
  have own : WriteSound host directory.users task write := sound.calls _ (List.mem_of_getElem? found)
  exact ⟨sound.records.land apart own lands,
    fun other listed => (lands.grows apart own).callSound (sound.calls other (List.mem_of_mem_eraseIdx listed))⟩

theorem Sound.next (apart : Function.Injective host.digest) (sound : Sound host directory) {oracle : Oracle}
    (met : Orderly host directory (.next place oracle)) (stepped : directory.next host place oracle = some after) :
    Sound host after := by
  rw [Directory.next] at stepped
  split at stepped
  · cases stepped
  · next task write found =>
      obtain rfl := Option.some.inj stepped
      exact sound.land apart found (met _ found)
  · next call _ found =>
      have outcome := advance_sound oracle sound.records (sound.calls call (List.mem_of_getElem? found))
      split at stepped
      · next phase made =>
          rw [made] at outcome
          obtain rfl := Option.some.inj stepped
          refine ⟨sound.records, fun other listed => ?_⟩
          rcases List.mem_or_eq_of_mem_set listed with old | rfl
          · exact sound.calls other old
          · exact outcome
      · next event made =>
          rw [made] at outcome
          obtain rfl := Option.some.inj stepped
          refine ⟨?_, fun other listed => sound.calls other (List.mem_of_mem_eraseIdx listed)⟩
          cases event with
          | none => exact sound.records
          | some event =>
              exact sound.records.log_cons (fun sub id same => outcome.1 sub id (congrArg some same))
                fun id subject deleted same => outcome.2 id subject deleted (congrArg some same)
      · cases stepped

theorem firstPhase_sound (valid : task.valid = true) :
    CallSound host users ⟨task, firstPhase task⟩ := by
  cases task with
  | create hex email displayName orgRole =>
      exact .creates hex email displayName orgRole _ rfl (isProvisioned_generateUserId valid) rfl
  | signIn | update | softDelete | restore => exact valid

theorem Sound.of_reached (apart : Function.Injective host.digest)
    (reached : (signInSystem host).ReachedBy (Orderly host) directory) : Sound host directory := by
  apply reached.invariant (Sound host)
  · rintro ⟨users, calls, log⟩ ⟨unbound, rfl, rfl⟩
    have free {id subject : String} (held : Held users id subject) : False := by
      obtain ⟨user, found, own⟩ := held
      cases (unbound.unbound id user found).symm.trans own
    exact
      { calls := fun _ listed => nomatch listed
        records :=
          { keyed := unbound.keyed
            emails := unbound.emails
            unique := fun _ _ _ held => (free held).elim
            derived := fun _ user found => .inl (unbound.unbound _ user found)
            only := fun _ _ _ _ held => (free held).elim
            bound := fun _ _ _ listed => nomatch listed
            stored := fun _ _ held => (free held).elim
            active := fun _ _ _ listed => nomatch listed
            answered := fun _ _ listed => nomatch listed } }
  · intro before action after sound met stepped
    cases action with
    | begin task =>
        simp only [signInSystem] at stepped
        split at stepped
        · next valid =>
            obtain rfl := Option.some.inj stepped
            exact ⟨sound.records, List.forall_mem_append.mpr
              ⟨sound.calls, List.forall_mem_singleton.mpr (firstPhase_sound valid)⟩⟩
        · cases stepped
    | next place oracle => exact sound.next apart met stepped
    | fail place =>
        obtain ⟨_, -, rfl⟩ := Option.map_eq_some_iff.mp stepped
        exact ⟨sound.records, fun other listed => sound.calls other (List.mem_of_mem_eraseIdx listed)⟩

/-- Subjects stand for their own digests. -/
def plainHost : OidcHost := ⟨"https://idp.example", id⟩

/-- A call that goes on several times while the directory holds one record. -/
def goesOn (place times : Nat) (ids : List String) : List Action := List.replicate times (.next place { now := 1, ids })

/-- An admin creates a record for an email. -/
def invited : List Action := .begin (.create "0" "ada@example.com" "Ada" .member) :: goesOn 0 3 []

def empty : Directory := { users := ∅ }

theorem empty_initial : (signInSystem plainHost).initial empty := by
  refine ⟨⟨fun _ _ found => ?_, fun _ _ found => ?_, fun _ _ _ _ found => ?_⟩, rfl, rfl⟩
  · cases found
  · cases found
  · cases found

end NimbleBrain.Identity.Oidc
