import NimbleBrain.Library.History
import NimbleBrain.Workspaces.Serialize
import NimbleBrain.Workspaces.Store

/- A write keeps what the other calls did when it lands on the record that its call has read. -/

namespace NimbleBrain.Workspaces

open Library History

/-- What a call says of a setting. -/
def Call.sets : Call → Setting → Option (Option String)
  | .create name about _ => fun setting => some (newSettings name about setting)
  | .update patch => patch
  | .addMember .. | .removeMember _ | .updateMemberRole .. | .delete => fun _ => none

def Call.seats (userId : String) : Call → Bool
  | .addMember other _ => decide (other = userId)
  | .create .. | .update _ | .removeMember _ | .updateMemberRole .. | .delete => false

/-- Whether a call is about the membership of a user. -/
def Call.concerns (userId : String) : Call → Bool
  | .addMember other _ | .removeMember other | .updateMemberRole other _ => decide (other = userId)
  | .create .. | .update _ | .delete => false

/-- What took effect stands until another call takes effect on the same. -/
structure Keeps (record : Option Workspace) (applied : List Call) : Prop where
  removed : ∀ userId, Pending (.removeMember userId) (Call.seats userId) applied →
    ∀ workspace ∈ record, userId ∉ workspace.userIds
  fields : ∀ (call : Call) setting value, call.sets setting = some value →
    Pending call (fun other => (other.sets setting).isSome) applied →
      ∀ workspace ∈ record, workspace.settings setting = value
  seated : ∀ userId role, Pending (.addMember userId role) (Call.concerns userId) applied →
    ∀ workspace ∈ record, ⟨userId, role⟩ ∈ workspace.members
  roles : ∀ userId role, Pending (.updateMemberRole userId role) (Call.concerns userId) applied →
    ∀ workspace ∈ record, ∀ member ∈ workspace.members, member.userId = userId → member.role = role
  initial : ∀ name about members, ∀ member ∈ members,
    Pending (.create name about members) (Call.concerns member.userId) applied →
      ∀ workspace ∈ record, member ∈ workspace.members
  once : ∀ workspace ∈ record, workspace.userIds.Nodup
  deleted : .delete ∈ applied → record = none

/-- A write lands on the record that its call has read, and a new workspace lists a user once. -/
def Orderly (store : Store) : Action → Prop
  | .write place => ∀ pass ∈ store.passes[place]?, store.directory = true → pass.read = store.record
  | .beginCreate _ _ members => (members.map WorkspaceMember.userId).Nodup
  | .readCreate _ | .writeCreate | .scaffold | .createFails | .begin _ | .read .. | .readFails _ | .writeFails _ | .move
    | .moveFails => True

instance (store : Store) (action : Action) : Decidable (Orderly store action) := by
  cases action <;> unfold Orderly <;> infer_instance

variable {record : Option Workspace} {applied : List Call} {workspace written : Workspace} {now : Nat}

theorem Keeps.none (applied : List Call) : Keeps none applied where
  removed := fun _ _ _ found => nomatch found
  fields := fun _ _ _ _ _ _ found => nomatch found
  seated := fun _ _ _ _ found => nomatch found
  roles := fun _ _ _ _ found => nomatch found
  initial := fun _ _ _ _ _ _ _ found => nomatch found
  once := fun _ found => nomatch found
  deleted := fun _ => rfl

variable {call : Call} {role : WorkspaceRole} {userId : String}

theorem Keeps.not_deleted (keeps : Keeps (some workspace) applied) (edits : call ≠ .delete) :
    .delete ∉ call :: applied := by
  intro deleted
  rcases List.mem_cons.mp deleted with same | earlier
  · exact edits same.symm
  · cases keeps.deleted earlier

/-- A call that sets no field keeps the fields. -/
theorem Keeps.fields_cons (keeps : Keeps (some workspace) applied) {latest : Call}
    (unset : ∀ setting, latest.sets setting = .none) (same : written.settings = workspace.settings) (call : Call)
    (setting : Setting) (value : Option String) (sets : call.sets setting = some value)
    (pending : Pending call (fun other => (other.sets setting).isSome) (latest :: applied)) :
    ∀ workspace ∈ some written, workspace.settings setting = value := by
  rintro _ ⟨⟩
  rcases pending with rfl | ⟨-, pending⟩
  · rw [unset] at sets
    cases sets
  · rw [same]
    exact keeps.fields call setting value sets pending workspace rfl

theorem Keeps.update (keeps : Keeps (some workspace) applied) {patch : Patch}
    (edited : update now patch (some workspace) = .ok (some written)) :
    Keeps (some written) (.update patch :: applied) := by
  obtain rfl := Option.some.inj (Except.ok.inj edited)
  constructor
  · rintro userId (same | ⟨-, pending⟩) _ ⟨⟩
    · cases same
    · exact keeps.removed userId pending workspace rfl
  · rintro call setting value sets (rfl | ⟨unset, pending⟩) _ ⟨⟩
    · simp [show patch setting = some value from sets]
    · have unpatched : patch setting = .none := by simpa [Call.sets] using unset
      simp only [unpatched, Option.getD_none]
      exact keeps.fields call setting value sets pending workspace rfl
  · rintro userId role (same | ⟨-, pending⟩) _ ⟨⟩
    · cases same
    · exact keeps.seated userId role pending workspace rfl
  · rintro userId role (same | ⟨-, pending⟩) _ ⟨⟩
    · cases same
    · exact keeps.roles userId role pending workspace rfl
  · rintro name about members member listed (same | ⟨-, pending⟩) _ ⟨⟩
    · cases same
    · exact keeps.initial name about members member listed pending workspace rfl
  · rintro _ ⟨⟩
    exact keeps.once workspace rfl
  · exact fun deleted => absurd deleted (keeps.not_deleted nofun)

theorem Keeps.addMember (keeps : Keeps (some workspace) applied)
    (edited : addMember now userId role (some workspace) = .ok (some written)) :
    Keeps (some written) (.addMember userId role :: applied) := by
  rw [Workspaces.addMember] at edited
  split at edited
  · cases edited
  next fresh =>
  obtain rfl := Option.some.inj (Except.ok.inj edited)
  have other {name : String} (foreign : decide (userId = name) = false) : ¬ name = userId :=
    fun same => of_decide_eq_false foreign same.symm
  constructor
  · rintro name (same | ⟨foreign, pending⟩) _ ⟨⟩
    · cases same
    · simp only [Workspace.userIds, List.map_append, List.map_singleton, List.mem_append, List.mem_singleton, not_or]
      exact ⟨keeps.removed name pending workspace rfl, other foreign⟩
  · exact keeps.fields_cons (fun _ => rfl) rfl
  · rintro name role' (same | ⟨-, pending⟩) _ ⟨⟩
    · cases same
      exact List.mem_append_right _ (List.mem_singleton.mpr rfl)
    · exact List.mem_append_left _ (keeps.seated name role' pending workspace rfl)
  · rintro name role' (same | ⟨foreign, pending⟩) _ ⟨⟩ member listed own
    · cases same
    · rcases List.mem_append.mp listed with earlier | new
      · exact keeps.roles name role' pending workspace rfl member earlier own
      · rw [List.mem_singleton.mp new] at own
        exact absurd own.symm (other foreign)
  · rintro title about members member listed (same | ⟨-, pending⟩) _ ⟨⟩
    · cases same
    · exact List.mem_append_left _ (keeps.initial title about members member listed pending workspace rfl)
  · rintro _ ⟨⟩
    rw [Workspace.userIds, List.map_append, List.nodup_append]
    refine ⟨keeps.once workspace rfl, List.nodup_singleton _, ?_⟩
    rintro earlier listed _ new rfl
    rw [List.mem_singleton.mp new] at listed
    exact fresh listed
  · exact fun deleted => absurd deleted (keeps.not_deleted nofun)

theorem Keeps.removeMember (keeps : Keeps (some workspace) applied)
    (edited : removeMember now userId (some workspace) = .ok (some written)) :
    Keeps (some written) (.removeMember userId :: applied) := by
  obtain rfl := Option.some.inj (Except.ok.inj edited)
  have stays {member : WorkspaceMember} (foreign : decide (userId = member.userId) = false)
      (listed : member ∈ workspace.members) : member ∈ workspace.members.filter (·.userId ≠ userId) :=
    List.mem_filter.mpr ⟨listed, decide_eq_true fun same => of_decide_eq_false foreign same.symm⟩
  constructor
  · rintro name (same | ⟨-, pending⟩) _ ⟨⟩ listed
    · cases same
      obtain ⟨member, kept, same⟩ := List.mem_map.mp listed
      simp [same] at kept
    · obtain ⟨member, kept, same⟩ := List.mem_map.mp listed
      exact keeps.removed name pending workspace rfl (List.mem_map.mpr ⟨member, List.mem_of_mem_filter kept, same⟩)
  · exact keeps.fields_cons (fun _ => rfl) rfl
  · rintro name role (same | ⟨foreign, pending⟩) _ ⟨⟩
    · cases same
    · exact stays foreign (keeps.seated name role pending workspace rfl)
  · rintro name role (same | ⟨-, pending⟩) _ ⟨⟩ member listed own
    · cases same
    · exact keeps.roles name role pending workspace rfl member (List.mem_of_mem_filter listed) own
  · rintro title about members member listed (same | ⟨foreign, pending⟩) _ ⟨⟩
    · cases same
    · exact stays foreign (keeps.initial title about members member listed pending workspace rfl)
  · rintro _ ⟨⟩
    exact (keeps.once workspace rfl).sublist (List.filter_sublist.map _)
  · exact fun deleted => absurd deleted (keeps.not_deleted nofun)

theorem Keeps.updateMemberRole (keeps : Keeps (some workspace) applied)
    (edited : updateMemberRole now userId role (some workspace) = .ok (some written)) :
    Keeps (some written) (.updateMemberRole userId role :: applied) := by
  obtain rfl := Option.some.inj (Except.ok.inj edited)
  let change (member : WorkspaceMember) : WorkspaceMember :=
    if member.userId = userId then { member with role } else member
  have name (member : WorkspaceMember) : (change member).userId = member.userId := by
    simp only [change]
    split <;> rfl
  have userIds : (workspace.members.map change).map WorkspaceMember.userId = workspace.userIds := by
    rw [List.map_map, Workspace.userIds]
    exact List.map_congr_left fun member _ => name member
  have stays {member : WorkspaceMember} (foreign : decide (userId = member.userId) = false)
      (listed : member ∈ workspace.members) : member ∈ workspace.members.map change :=
    List.mem_map.mpr ⟨member, listed, if_neg fun same => of_decide_eq_false foreign same.symm⟩
  constructor
  · rintro other (same | ⟨-, pending⟩) _ ⟨⟩
    · cases same
    · intro listed
      exact keeps.removed other pending workspace rfl ((congrArg (other ∈ ·) userIds).mp listed)
  · exact keeps.fields_cons (fun _ => rfl) rfl
  · rintro other role' (same | ⟨foreign, pending⟩) _ ⟨⟩
    · cases same
    · exact stays foreign (keeps.seated other role' pending workspace rfl)
  · rintro other role' (same | ⟨foreign, pending⟩) _ ⟨⟩ member listed own
    · cases same
      obtain ⟨earlier, -, rfl⟩ := List.mem_map.mp listed
      rw [if_pos ((name earlier).symm.trans own)]
    · obtain ⟨earlier, present, rfl⟩ := List.mem_map.mp listed
      have foreign : ¬ earlier.userId = userId :=
        fun same => of_decide_eq_false foreign (same.symm.trans ((name earlier).symm.trans own))
      rw [if_neg foreign] at own ⊢
      exact keeps.roles other role' pending workspace rfl earlier present own
  · rintro title about members member listed (same | ⟨foreign, pending⟩) _ ⟨⟩
    · cases same
    · exact stays foreign (keeps.initial title about members member listed pending workspace rfl)
  · rintro _ ⟨⟩
    exact (congrArg List.Nodup userIds).mpr (keeps.once workspace rfl)
  · exact fun deleted => absurd deleted (keeps.not_deleted nofun)

variable {about : Option String} {members : List WorkspaceMember} {name : String}

/-- A new workspace is as its call describes it. -/
theorem Keeps.create (distinct : (members.map WorkspaceMember.userId).Nodup)
    (edited : create now name about members record = .ok (some written)) :
    Keeps (some written) [.create name about members] := by
  cases record with
  | some workspace => cases edited
  | none =>
      obtain rfl := Option.some.inj (Except.ok.inj edited)
      constructor
      · rintro userId (same | ⟨-, ⟨⟩⟩)
        cases same
      · rintro call setting value sets (rfl | ⟨-, ⟨⟩⟩) _ ⟨⟩
        exact Option.some.inj sets
      · rintro userId role (same | ⟨-, ⟨⟩⟩)
        cases same
      · rintro userId role (same | ⟨-, ⟨⟩⟩)
        cases same
      · rintro title about' members' member listed (same | ⟨-, ⟨⟩⟩) _ ⟨⟩
        cases same
        exact listed
      · rintro _ ⟨⟩
        exact distinct
      · intro deleted
        cases List.mem_singleton.mp deleted

/-- An edit of the record keeps what took effect before. -/
theorem Keeps.edit (keeps : Keeps (some workspace) applied)
    (edited : call.edit now (some workspace) = .ok (some written)) : Keeps (some written) (call :: applied) := by
  cases call with
  | create name about members => cases edited
  | update patch => exact keeps.update edited
  | addMember userId role => exact keeps.addMember edited
  | removeMember userId => exact keeps.removeMember edited
  | updateMemberRole userId role => exact keeps.updateMemberRole edited
  | delete => cases edited

/-- Only a creation makes a record out of none. -/
theorem Call.edit_some (older : ∀ name about members, call ≠ .create name about members)
    (edited : call.edit now record = .ok (some written)) : ∃ workspace, record = some workspace := by
  cases record with
  | some workspace => exact ⟨workspace, rfl⟩
  | none =>
      cases call with
      | create name about members => exact absurd rfl (older name about members)
      | update patch => cases edited
      | addMember userId role => cases edited
      | removeMember userId => cases edited
      | updateMemberRole userId role => cases edited
      | delete => cases edited

/-- What holds while a workspace is created. -/
def CreationSound (store : Store) : Prop :=
  match store.creation with
  | .unborn => store.directory = false ∧ store.record = none ∧ store.applied = []
  | .begun call => store.directory = false ∧ store.record = none ∧ store.applied = [] ∧
      ∃ name about members, call = .create name about members ∧ (members.map WorkspaceMember.userId).Nodup
  | .writing pass => store.record = none ∧ (store.directory = true → store.applied = []) ∧
      Keeps (some pass.written) [pass.call]
  | .scaffolding | .over => True

structure Sound (store : Store) : Prop where
  keeps : Keeps store.record store.applied
  begun : ∀ call ∈ store.begun, ∀ name about members, call ≠ .create name about members
  passes : ∀ pass ∈ store.passes, ∃ now workspace, pass.read = some workspace ∧
    pass.call.edit now (some workspace) = .ok (some pass.written)
  creation : CreationSound store

variable {store next : Store}

theorem Sound.beginCreate (sound : Sound store) (met : Orderly store (.beginCreate name about members))
    (stepped : storeSystem.step store (.beginCreate name about members) = some next) : Sound next := by
  rw [storeSystem] at stepped
  dsimp only at stepped
  split at stepped
  · next unborn =>
      obtain rfl := Option.some.inj stepped
      have fresh := sound.creation
      rw [CreationSound, unborn] at fresh
      exact ⟨sound.keeps, sound.begun, sound.passes, fresh.1, fresh.2.1, fresh.2.2, name, about, members, rfl, met⟩
  · cases stepped

variable {place : Nat}

theorem Sound.readCreate (sound : Sound store) (stepped : store.readCreate now = some next) : Sound next := by
  rw [Store.readCreate] at stepped
  cases phase : store.creation with
  | begun call =>
      have fresh := sound.creation
      rw [CreationSound, phase] at fresh
      obtain ⟨-, none, nothing, name, about, members, rfl, distinct⟩ := fresh
      simp only [phase] at stepped
      split at stepped
      · next written edited =>
          obtain rfl := Option.some.inj stepped
          exact ⟨sound.keeps, sound.begun, sound.passes, none, fun _ => nothing, Keeps.create distinct edited⟩
      · obtain rfl := Option.some.inj stepped
        exact ⟨sound.keeps, sound.begun, sound.passes, trivial⟩
  | unborn => simp [phase] at stepped
  | writing pass => simp [phase] at stepped
  | scaffolding => simp [phase] at stepped
  | «over» => simp [phase] at stepped

theorem Sound.writeCreate (sound : Sound store) (stepped : store.writeCreate = some next) : Sound next := by
  rw [Store.writeCreate] at stepped
  cases phase : store.creation with
  | writing pass =>
      have fresh := sound.creation
      rw [CreationSound, phase] at fresh
      obtain ⟨-, nothing, keeps⟩ := fresh
      simp only [phase] at stepped
      split at stepped
      · next present =>
          obtain rfl := Option.some.inj stepped
          refine ⟨?_, sound.begun, sound.passes, trivial⟩
          rw [← nothing present] at keeps
          exact keeps
      · obtain rfl := Option.some.inj stepped
        exact ⟨sound.keeps, sound.begun, sound.passes, trivial⟩
  | unborn => simp [phase] at stepped
  | begun call => simp [phase] at stepped
  | scaffolding => simp [phase] at stepped
  | «over» => simp [phase] at stepped

theorem Sound.scaffold (sound : Sound store) (stepped : store.scaffold = some next) : Sound next := by
  rw [Store.scaffold] at stepped
  split at stepped
  · obtain rfl := Option.some.inj stepped
    exact ⟨sound.keeps, sound.begun, sound.passes, trivial⟩
  · cases stepped

theorem Sound.createFails (sound : Sound store) (stepped : store.createFails = some next) : Sound next := by
  rw [Store.createFails] at stepped
  split at stepped
  · cases stepped
  · cases stepped
  all_goals
    obtain rfl := Option.some.inj stepped
    exact ⟨sound.keeps, sound.begun, sound.passes, trivial⟩

theorem Sound.begin (sound : Sound store) {call : Call} (stepped : store.begin call = some next) : Sound next := by
  have joins (older : ∀ name about members, call ≠ .create name about members) :
      Sound { store with begun := store.begun ++ [call] } := by
    refine ⟨sound.keeps, ?_, sound.passes, sound.creation⟩
    exact List.forall_mem_append.mpr ⟨sound.begun, List.forall_mem_singleton.mpr older⟩
  cases call with
  | create name about members => cases stepped
  | delete =>
      rw [Store.begin] at stepped
      split at stepped
      · exact Option.some.inj stepped ▸ joins nofun
      · exact Option.some.inj stepped ▸ sound
  | update patch => exact Option.some.inj stepped ▸ joins nofun
  | addMember userId role => exact Option.some.inj stepped ▸ joins nofun
  | removeMember userId => exact Option.some.inj stepped ▸ joins nofun
  | updateMemberRole userId role => exact Option.some.inj stepped ▸ joins nofun

/-- A call that leaves the begun ones. -/
theorem Sound.leave (sound : Sound store) (place : Nat) : Sound { store with begun := store.begun.eraseIdx place } :=
  ⟨sound.keeps, fun call listed => sound.begun call (List.mem_of_mem_eraseIdx listed), sound.passes, sound.creation⟩

theorem Sound.read (sound : Sound store) (stepped : store.read place now = some next) : Sound next := by
  obtain ⟨call, found, rfl⟩ := Option.map_eq_some_iff.mp stepped
  have older := sound.begun call (List.mem_of_getElem? found)
  have left := sound.leave place
  dsimp only
  split
  · exact ⟨left.keeps, left.begun, left.passes, left.creation⟩
  · split
    · next written edited =>
        refine ⟨left.keeps, left.begun, ?_, left.creation⟩
        obtain ⟨workspace, read⟩ := Call.edit_some older edited
        refine List.forall_mem_append.mpr ⟨left.passes, List.forall_mem_singleton.mpr ⟨now, workspace, read, ?_⟩⟩
        rw [← read]
        exact edited
    · exact left
    · exact left

/-- A write that lands on what its call has read. -/
theorem Sound.write (sound : Sound store) (met : Orderly store (.write place))
    (stepped : store.write place = some next) : Sound next := by
  obtain ⟨pass, found, rfl⟩ := Option.map_eq_some_iff.mp stepped
  obtain ⟨now, workspace, read, edited⟩ := sound.passes pass (List.mem_of_getElem? found)
  have others : ∀ other ∈ store.passes.eraseIdx place, ∃ now workspace, other.read = some workspace ∧
      other.call.edit now (some workspace) = .ok (some other.written) :=
    fun other listed => sound.passes other (List.mem_of_mem_eraseIdx listed)
  dsimp only
  split
  · next present =>
      have record : store.record = some workspace := (met pass found present).symm.trans read
      have keeps := sound.keeps
      rw [record] at keeps
      refine ⟨keeps.edit edited, sound.begun, others, ?_⟩
      have creation := sound.creation
      unfold CreationSound at creation ⊢
      cases phase : store.creation with
      | unborn =>
          simp only [phase, record] at creation
          cases creation.2.1
      | begun call =>
          simp only [phase, record] at creation
          cases creation.2.1
      | writing pass =>
          simp only [phase, record] at creation
          cases creation.1
      | scaffolding => trivial
      | «over» => trivial
  · exact ⟨sound.keeps, sound.begun, others, sound.creation⟩

theorem Sound.move (sound : Sound store) (stepped : store.move = some next) : Sound next := by
  rw [Store.move] at stepped
  split at stepped
  · cases stepped
  · split at stepped
    · next present =>
        obtain rfl := Option.some.inj stepped
        refine ⟨.none _, sound.begun, sound.passes, ?_⟩
        have creation := sound.creation
        unfold CreationSound at creation ⊢
        cases phase : store.creation with
        | unborn =>
            simp only [phase] at creation
            cases present.symm.trans creation.1
        | begun call =>
            simp only [phase] at creation
            cases present.symm.trans creation.1
        | writing pass =>
            simp only [phase] at creation
            exact ⟨rfl, nofun, creation.2.2⟩
        | scaffolding => trivial
        | «over» => trivial
    · obtain rfl := Option.some.inj stepped
      exact ⟨sound.keeps, sound.begun, sound.passes, sound.creation⟩

theorem Sound.of_initial (first : Initial store) : Sound store := by
  rcases first with rfl | ⟨workspace, distinct, rfl⟩
  · exact ⟨.none [], nofun, nofun, rfl, rfl, rfl⟩
  · refine ⟨?_, nofun, nofun, trivial⟩
    exact
      { removed := fun _ pending => nomatch pending
        fields := fun _ _ _ _ pending => nomatch pending
        seated := fun _ _ pending => nomatch pending
        roles := fun _ _ pending => nomatch pending
        initial := fun _ _ _ _ _ pending => nomatch pending
        once := fun _ found => Option.some.inj found ▸ distinct
        deleted := nofun }

theorem Sound.of_reached (reached : storeSystem.ReachedBy Orderly store) : Sound store := by
  apply reached.invariant Sound
  · exact fun _ first => Sound.of_initial first
  · intro before action after sound met stepped
    cases action with
    | beginCreate name about members => exact sound.beginCreate met stepped
    | readCreate now => exact sound.readCreate stepped
    | writeCreate => exact sound.writeCreate stepped
    | scaffold => exact sound.scaffold stepped
    | createFails => exact sound.createFails stepped
    | begin call => exact sound.begin stepped
    | read place now => exact sound.read stepped
    | write place => exact sound.write met stepped
    | readFails place =>
        obtain ⟨_, -, rfl⟩ := Option.map_eq_some_iff.mp stepped
        exact sound.leave place
    | writeFails place =>
        obtain ⟨_, -, rfl⟩ := Option.map_eq_some_iff.mp stepped
        exact ⟨sound.keeps, sound.begun, fun other listed => sound.passes other (List.mem_of_mem_eraseIdx listed),
          sound.creation⟩
    | move => exact sound.move stepped
    | moveFails =>
        simp only [storeSystem] at stepped
        split at stepped
        · cases stepped
        · exact Option.some.inj stepped ▸ ⟨sound.keeps, sound.begun, sound.passes, sound.creation⟩

/-- No update is lost while each write lands on what its call has read, and queued tasks never overlap. -/
theorem updates_kept {store : Store} {chain : WriteChain} (reached : storeSystem.ReachedBy Orderly store)
    (chained : chainSystem.Reachable chain) : Keeps store.record store.applied ∧ chain.Serializes :=
  ⟨(Sound.of_reached reached).keeps, .of_reachable chained⟩

/-- A workspace with one member. -/
def shared : Store where
  directory := true
  record := some
    { members := [⟨"usr_a", .member⟩], settings := newSettings "Shared" none, createdAt := 0, updatedAt := 0 }
  creation := .over

def rename : Call := .update fun setting => if setting = .name then some (some "Team") else none

theorem shared_initial : Initial shared := by
  refine .inr ⟨_, ?_, rfl⟩
  decide

/-- The member is removed before another call reads the record. -/
theorem updates_kept_in_turn :
    ∃ store ∈ storeSystem.run shared
        [.begin (.removeMember "usr_a"), .read 0 1, .write 0, .begin rename, .read 0 2, .write 0],
      ∃ chain ∈ chainSystem.run {} [.call, .call, .start 0, .settle 0 true, .release 0, .start 1],
        store.applied = [rename, .removeMember "usr_a"] ∧ chain.phaseAt 1 = some .running ∧
          Keeps store.record store.applied ∧ chain.Serializes := by
  have ran : (storeSystem.run shared
      [.begin (.removeMember "usr_a"), .read 0 1, .write 0, .begin rename, .read 0 2, .write 0]).any
        (fun store => store.applied = [rename, .removeMember "usr_a"]) = true := by decide +kernel
  have meets : storeSystem.Meets Orderly shared
      [.begin (.removeMember "usr_a"), .read 0 1, .write 0, .begin rename, .read 0 2, .write 0] := by decide +kernel
  have chained : (chainSystem.run {} [.call, .call, .start 0, .settle 0 true, .release 0, .start 1]).any
      (fun chain => chain.phaseAt 1 = some .running) = true := by decide +kernel
  obtain ⟨store, ran, applied⟩ := Option.any_eq_true .. |>.mp ran
  obtain ⟨chain, chained, runs⟩ := Option.any_eq_true .. |>.mp chained
  exact ⟨store, ran, chain, chained, of_decide_eq_true applied, of_decide_eq_true runs,
    updates_kept (System.ReachedBy.run (.start shared shared_initial) meets ran)
      (System.Reachable.run (.start {} rfl) chained)⟩

/-- An update that read the member before the removal writes it back. -/
theorem removal_lost : ¬ ∀ store, storeSystem.Reachable store → Keeps store.record store.applied := by
  intro all
  have ran : (storeSystem.run shared
      [.begin rename, .begin (.removeMember "usr_a"), .read 0 1, .read 0 2, .write 1, .write 0]).any (fun store =>
        store.applied = [rename, .removeMember "usr_a"] ∧
          (store.record.any fun workspace => workspace.userIds = ["usr_a"]) = true) = true := by decide +kernel
  obtain ⟨store, ran, ended⟩ := Option.any_eq_true .. |>.mp ran
  obtain ⟨applied, listed⟩ := of_decide_eq_true ended
  obtain ⟨workspace, record, userIds⟩ := Option.any_eq_true .. |>.mp listed
  have removed := (all store (System.Reachable.run (.start shared shared_initial) ran)).removed "usr_a"
    (by rw [applied]; decide) workspace record
  rw [of_decide_eq_true userIds] at removed
  exact removed List.mem_cons_self

/-- A creation that makes its subdirectories after the deletion lets an earlier update write the record again. -/
example : (storeSystem.run { directory := false, record := none, creation := .unborn }
    [.beginCreate "Shared" none [], .readCreate 0, .writeCreate, .begin rename, .begin .delete, .read 0 1, .read 0 1,
      .move, .scaffold, .write 0]).any (fun store => store.applied.contains .delete && store.record.isSome) = true := by
  decide +kernel

end NimbleBrain.Workspaces
