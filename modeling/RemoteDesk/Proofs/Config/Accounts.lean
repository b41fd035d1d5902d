import Mathlib.Data.List.Dedup
import RemoteDesk.Auth.Attempt
import RemoteDesk.Config.Check
import RemoteDesk.Proofs.Command.Reading
import RemoteDesk.Proofs.Json.Members
import RemoteDesk.Proofs.Password.Remembered

/-!
Accounts are kept apart. Of several entries for a name the last one counts, for its password and
for its permissions alike, and a name without an entry opens nothing. Settings that can be run have
one entry for each name, and all of them become accounts.
-/
namespace RemoteDesk

/-- The last of the entries for a name. -/
def IsLast (entries : List UserEntry) (username : String) (e : UserEntry) : Prop :=
  e.username = username ∧
    ∃ before after, entries = before ++ e :: after ∧ ∀ later ∈ after, later.username ≠ username

theorem exists_isLast {entries : List UserEntry} {username : String}
    (h : ∃ e ∈ entries, e.username = username) : ∃ e, IsLast entries username e := by
  induction entries with
  | nil => simp at h
  | cons first entries ih =>
    by_cases hrest : ∃ e ∈ entries, e.username = username
    · obtain ⟨e, hname, before, after, rfl, hafter⟩ := ih hrest
      exact ⟨e, hname, first :: before, after, rfl, hafter⟩
    · obtain ⟨e, hmem, hname⟩ := h
      rcases List.mem_cons.mp hmem with rfl | hmem
      · exact ⟨e, hname, [], entries, rfl, fun later hl heq => hrest ⟨later, hl, heq⟩⟩
      · exact absurd ⟨e, hmem, hname⟩ hrest

namespace Directory

/-! ### One entry after the other -/

/-- What is known from an entry. -/
def stored (e : UserEntry) : StoredUser := ⟨e.record, .ofList e.permissions⟩

/-- The accounts after some entries. -/
def putAll (entries : List UserEntry) (users : List (String × StoredUser)) :
    List (String × StoredUser) :=
  entries.foldl (fun users e => put e.username (stored e) users) users

variable {entries : List UserEntry} {users : List (String × StoredUser)} {username other : String}

/-- The list is accepted if the record of each entry is. -/
theorem addEntries_eq_ok_iff {all : List (String × StoredUser)} :
    addEntries entries users = .ok all ↔
      (∀ e ∈ entries, Password.checkRecord e.record = .ok ()) ∧ all = putAll entries users := by
  induction entries generalizing users with
  | nil =>
    simp only [addEntries, List.not_mem_nil, false_imp_iff, implies_true, true_and]
    exact ⟨fun h => (Except.ok.inj h).symm, fun h => congrArg _ h.symm⟩
  | cons e entries ih =>
    rw [List.forall_mem_cons, addEntries]
    cases hcheck : Password.checkRecord e.record with
    | error fault => simp
    | ok _ =>
      rw [ih, and_iff_right rfl]
      rfl

@[simp] theorem lookup_put_self (user : StoredUser) :
    (put username user users).lookup username = some user := List.lookup_cons_self

theorem lookup_put_of_ne (h : other ≠ username) (user : StoredUser) :
    (put username user users).lookup other = users.lookup other := by
  rw [put, List.lookup_cons, beq_eq_false_iff_ne.mpr h]
  exact lookup_filter_of_ne h users

theorem lookup_putAll_of_absent (h : ∀ e ∈ entries, e.username ≠ username)
    (users : List (String × StoredUser)) :
    (putAll entries users).lookup username = users.lookup username := by
  induction entries generalizing users with
  | nil => rfl
  | cons e entries ih =>
    rw [List.forall_mem_cons] at h
    show (putAll entries (put e.username (stored e) users)).lookup username = _
    rw [ih h.2, lookup_put_of_ne (Ne.symm h.1)]

/-- The last entry for a name is the one that is found. -/
theorem lookup_putAll_of_isLast {e : UserEntry} (h : IsLast entries username e)
    (users : List (String × StoredUser)) :
    (putAll entries users).lookup username = some (stored e) := by
  obtain ⟨rfl, before, after, rfl, hafter⟩ := h
  have hsplit : putAll (before ++ e :: after) users =
      putAll after (put e.username (stored e) (putAll before users)) := List.foldl_append
  rw [hsplit, lookup_putAll_of_absent hafter, lookup_put_self]

/-! ### One account for each name -/

theorem nodup_names_put (h : (users.map (·.1)).Nodup) (user : StoredUser) :
    ((put username user users).map (·.1)).Nodup := by
  rw [put, List.map_cons, List.nodup_cons]
  refine ⟨?_, h.sublist (List.filter_sublist.map _)⟩
  simp [List.mem_map, List.mem_filter]

theorem mem_names_put (user : StoredUser) :
    other ∈ (put username user users).map (·.1) ↔ other = username ∨ other ∈ users.map (·.1) := by
  by_cases h : other = username <;> simp [put, h]

theorem nodup_names_putAll (entries : List UserEntry) (h : (users.map (·.1)).Nodup) :
    ((putAll entries users).map (·.1)).Nodup := by
  induction entries generalizing users with
  | nil => exact h
  | cons e entries ih => exact ih (nodup_names_put h (stored e))

theorem mem_names_putAll :
    other ∈ (putAll entries users).map (·.1) ↔
      other ∈ entries.map (·.username) ∨ other ∈ users.map (·.1) := by
  induction entries generalizing users with
  | nil => simp [putAll]
  | cons e entries ih =>
    refine Iff.trans ih ?_
    rw [mem_names_put, List.map_cons, List.mem_cons]
    tauto

theorem length_putAll : (putAll entries []).length = (entries.map (·.username)).dedup.length := by
  have hnodup : ((putAll entries []).map (·.1)).Nodup := by
    apply nodup_names_putAll
    exact List.nodup_nil
  have hperm : ((putAll entries []).map (·.1)).Perm (entries.map (·.username)).dedup :=
    (List.perm_ext_iff_of_nodup hnodup (List.nodup_dedup _)).mpr fun name => by
      rw [mem_names_putAll, List.mem_dedup]
      simp
  rw [← hperm.length_eq, List.length_map]

/-! ### The decoy -/

variable {salt : Bytes}

theorem exists_decoyRecord_eq (salt : Bytes) :
    ∃ p, Password.record .standard salt "unknown user" = .ok p ∧ decoyRecord salt = p.render := by
  obtain ⟨p, hp⟩ := Password.record_standard salt "unknown user"
  exact ⟨p, hp, by rw [decoyRecord, hp]⟩

theorem checkRecord_decoyRecord (h : salt.length = Password.saltBytes) :
    Password.checkRecord (decoyRecord salt) = .ok () := by
  obtain ⟨p, hp, hrender⟩ := exists_decoyRecord_eq salt
  rw [hrender, (Password.usable_standard h).checkRecord_render hp]

theorem verify_decoyRecord (h : salt.length = Password.saltBytes) :
    Password.verify "unknown user" (decoyRecord salt) = true := by
  obtain ⟨p, hp, hrender⟩ := exists_decoyRecord_eq salt
  rw [hrender, (Password.usable_standard h).verify_render hp]

/-! ### The accounts of a list -/

variable {d : Directory} {e : UserEntry}

theorem ofEntries_eq_ok_iff :
    ofEntries salt entries = .ok d ↔
      (∀ e ∈ entries, Password.checkRecord e.record = .ok ()) ∧
        d = ⟨putAll entries [], Thunk.mk fun _ => decoyRecord salt⟩ := by
  constructor
  · intro h
    obtain ⟨users, hadd, rfl⟩ := map_eq_ok h
    obtain ⟨haccepted, rfl⟩ := addEntries_eq_ok_iff.mp hadd
    exact ⟨haccepted, rfl⟩
  · rintro ⟨haccepted, rfl⟩
    rw [ofEntries, addEntries_eq_ok_iff.mpr ⟨haccepted, rfl⟩]
    rfl

/-- A list is not accepted because of a record in it that is not. -/
theorem ofEntries_eq_error {b : BadRecord} (h : ofEntries salt entries = .error b) :
    ∃ e ∈ entries, Password.checkRecord e.record ≠ .ok () := by
  by_contra hnone
  push Not at hnone
  rw [ofEntries_eq_ok_iff.mpr ⟨hnone, rfl⟩] at h
  contradiction

variable (hd : ofEntries salt entries = .ok d)

include hd

theorem lookup_of_isLast (h : IsLast entries username e) :
    d.users.lookup username = some (stored e) := by
  obtain ⟨-, rfl⟩ := ofEntries_eq_ok_iff.mp hd
  exact lookup_putAll_of_isLast h []

theorem lookup_of_absent (h : ∀ e ∈ entries, e.username ≠ username) :
    d.users.lookup username = none := by
  obtain ⟨-, rfl⟩ := ofEntries_eq_ok_iff.mp hd
  exact lookup_putAll_of_absent h []

theorem verify_of_isLast (h : IsLast entries username e) (password : String) :
    d.verify username password = Password.verify password e.record := by
  simp only [verify, lookup_of_isLast hd h]
  rfl

theorem permissions_of_isLast (h : IsLast entries username e) :
    d.permissions username = .ofList e.permissions := by
  simp only [permissions, lookup_of_isLast hd h]
  rfl

theorem verify_of_absent (h : ∀ e ∈ entries, e.username ≠ username) (password : String) :
    d.verify username password = false := by
  simp only [verify, lookup_of_absent hd h]
  rfl

theorem permissions_of_absent (h : ∀ e ∈ entries, e.username ≠ username) :
    d.permissions username = .empty := by
  simp only [permissions, lookup_of_absent hd h]
  rfl

theorem verify_iff (username password : String) :
    d.verify username password = true ↔
      ∃ e, IsLast entries username e ∧ Password.verify password e.record = true := by
  constructor
  · intro hverify
    by_cases hknown : ∃ e ∈ entries, e.username = username
    · obtain ⟨e, he⟩ := exists_isLast hknown
      exact ⟨e, he, verify_of_isLast hd he password ▸ hverify⟩
    · push Not at hknown
      rw [verify_of_absent hd hknown] at hverify
      contradiction
  · rintro ⟨e, he, hrecord⟩
    rw [verify_of_isLast hd he, hrecord]

/-- Right credentials are those of the user that they name. -/
theorem identify_eq_some_iff (username password : String) (who : Identity) :
    d.identify username password = some who ↔ who.username = username ∧
      ∃ e, IsLast entries username e ∧ Password.verify password e.record = true := by
  rw [identify, ← verify_iff hd, Option.ite_none_right_eq_some]
  constructor
  · rintro ⟨hverify, hwho⟩
    exact ⟨(congrArg Identity.username (Option.some.inj hwho)).symm, hverify⟩
  · rintro ⟨rfl, hverify⟩
    exact ⟨hverify, rfl⟩

theorem verify_decoy (hsalt : salt.length = Password.saltBytes) :
    Password.verify "unknown user" d.decoy.get = true := by
  obtain ⟨-, rfl⟩ := ofEntries_eq_ok_iff.mp hd
  exact verify_decoyRecord hsalt

/-- Who logs in is the user that was named, with what the last entry for the name allows. -/
theorem settle_eq_ok_iff {s : Auth.Settings} (hs : s.accounts = d.accounts) (fs : Auth.Failures)
    (a : Auth.Attempt) (now : Time) (c : Auth.Context) :
    (a.settle s fs now).result = .ok c ↔
      ∃ e, IsLast entries a.credentials.username e ∧
        Password.verify a.credentials.password e.record = true ∧
        c = ⟨Auth.tokenOf a.random, a.credentials.username, now, now.after s.tokenTtl,
          .ofList e.permissions⟩ := by
  have hidentify : s.accounts.identify = d.identify := by rw [hs]; rfl
  have hpermissions : ∀ who, s.accounts.permissions who = d.permissions who.username := by
    intro who
    rw [hs]
    rfl
  constructor
  · intro h
    cases hwho : d.identify a.credentials.username a.credentials.password with
    | none =>
      rw [Auth.Attempt.settle_of_none fs now (hidentify ▸ hwho)] at h
      contradiction
    | some who =>
      rw [Auth.Attempt.settle_of_some fs now (hidentify ▸ hwho)] at h
      obtain ⟨hname, e, he, hrecord⟩ := (identify_eq_some_iff hd _ _ _).mp hwho
      refine ⟨e, he, hrecord, (Except.ok.inj h).symm.trans ?_⟩
      rw [Auth.Attempt.context, hpermissions, hname, permissions_of_isLast hd he]
  · rintro ⟨e, he, hrecord, rfl⟩
    have hwho := (identify_eq_some_iff hd a.credentials.username a.credentials.password
      ⟨a.credentials.username⟩).mpr ⟨rfl, e, he, hrecord⟩
    rw [Auth.Attempt.settle_of_some fs now (hidentify ▸ hwho), Auth.Attempt.context, hpermissions,
      permissions_of_isLast hd he]

omit hd

/-- Accounts that were made of entries and are not mixed up. -/
structure Keeps (salt : Bytes) (entries : List UserEntry) (d : Directory) : Prop where
  /-- A password is a user's if it is of the last record for the name. -/
  verify : ∀ username password, d.verify username password = true ↔
    ∃ e, IsLast entries username e ∧ Password.verify password e.record = true
  /-- Whoever it is then is the user that was named. -/
  identify : ∀ username password who, d.identify username password = some who ↔
    who.username = username ∧
      ∃ e, IsLast entries username e ∧ Password.verify password e.record = true
  /-- The permissions are those of the same entry. -/
  permissions : ∀ username e, IsLast entries username e →
    ∀ p, (d.permissions username).contains p = true ↔ p ∈ e.permissions
  /-- Who logs in is the user that was named, with these permissions. -/
  login : ∀ s : Auth.Settings, s.accounts = d.accounts → ∀ fs (a : Auth.Attempt) now c,
    (a.settle s fs now).result = .ok c ↔
      ∃ e, IsLast entries a.credentials.username e ∧
        Password.verify a.credentials.password e.record = true ∧
        c = ⟨Auth.tokenOf a.random, a.credentials.username, now, now.after s.tokenTtl,
          .ofList e.permissions⟩
  /-- A name without an entry opens nothing and may do nothing. -/
  unknown : ∀ username, (∀ e ∈ entries, e.username ≠ username) →
    (∀ password, d.verify username password = false) ∧ d.permissions username = .empty
  /-- So for such a name not even the password that is right for the decoy counts. -/
  decoy : salt.length = Password.saltBytes → Password.verify "unknown user" d.decoy.get = true
  size : d.size = (entries.map (·.username)).dedup.length

theorem keeps_of_ofEntries (hd : ofEntries salt entries = .ok d) : Keeps salt entries d where
  verify := verify_iff hd
  identify := identify_eq_some_iff hd
  permissions username e he p := by
    rw [permissions_of_isLast hd he, PermissionSet.contains_ofList, decide_eq_true_iff]
  login s hs := settle_eq_ok_iff hd hs
  unknown username h := ⟨verify_of_absent hd h, permissions_of_absent hd h⟩
  decoy := verify_decoy hd
  size := by
    obtain ⟨-, rfl⟩ := ofEntries_eq_ok_iff.mp hd
    exact length_putAll

end Directory

/-! ### Settings that can be run -/

namespace Config

/-- Accounts can be run if each has a name that no other has, and a record that is accepted. -/
theorem checkUsers_eq_ok_iff {users : List UserEntry} {before : List String} :
    checkUsers before users = .ok () ↔
      (∀ u ∈ users, u.username ≠ "" ∧ Password.checkRecord u.record = .ok ()) ∧
        (users.map (·.username)).Nodup ∧ (users.map (·.username)).Disjoint before := by
  induction users generalizing before with
  | nil => simp [checkUsers]
  | cons u users ih =>
    rw [checkUsers, List.forall_mem_cons, List.map_cons, List.nodup_cons, List.disjoint_cons_left]
    split_ifs with hempty hbefore
    · simp [hempty]
    · simp [List.contains_iff_mem.mp hbefore]
    · rw [List.contains_iff_mem] at hbefore
      cases Password.checkRecord u.record with
      | error fault => simp
      | ok _ =>
        -- Here the name is one of those before, in the goal it is one that does not come again.
        rw [ih, List.disjoint_cons_right]
        tauto

theorem checkUsers_of_check {c : Config} (h : c.check = .ok ()) :
    checkUsers [] c.users = .ok () := by
  obtain ⟨_, -, h⟩ := bind_eq_ok h
  split_ifs at h
  exact h

end Config

/-- Where names do not repeat each entry is the last for its name. -/
theorem isLast_of_nodup {entries : List UserEntry} {e : UserEntry}
    (h : (entries.map (·.username)).Nodup) (he : e ∈ entries) : IsLast entries e.username e := by
  obtain ⟨before, after, rfl⟩ := List.append_of_mem he
  refine ⟨rfl, before, after, rfl, fun later hlater hname => ?_⟩
  rw [List.map_append, List.map_cons] at h
  have hnot := (List.nodup_cons.mp h.of_append_right).1
  exact hnot (List.mem_map.mpr ⟨later, hlater, hname⟩)

/-- The accounts of a list are kept apart. The accounts of settings that can be run can be made,
and each entry counts. A list that no accounts can be made of is in no settings that can be run. -/
theorem accounts_kept_apart (salt : Bytes) (entries : List UserEntry) :
    (∀ d, Directory.ofEntries salt entries = .ok d → Directory.Keeps salt entries d) ∧
      (∀ c : Config, c.users = entries → c.check = .ok () →
        ∃ d, Directory.ofEntries salt entries = .ok d ∧ d.size = entries.length ∧
          (entries.map (·.username)).Nodup ∧ ∀ e ∈ entries, IsLast entries e.username e) ∧
      ∀ (b : BadRecord) (c : Config), Directory.ofEntries salt entries = .error b →
        c.users = entries → ∃ o, c.check = .error o := by
  refine ⟨fun d => Directory.keeps_of_ofEntries, ?_, ?_⟩
  · rintro c rfl hcheck
    obtain ⟨hall, hnodup, -⟩ := Config.checkUsers_eq_ok_iff.mp (Config.checkUsers_of_check hcheck)
    have hd : Directory.ofEntries salt c.users = .ok _ :=
      Directory.ofEntries_eq_ok_iff.mpr ⟨fun e he => (hall e he).2, rfl⟩
    refine ⟨_, hd, ?_, hnodup, fun e he => isLast_of_nodup hnodup he⟩
    rw [(Directory.keeps_of_ofEntries hd).size, hnodup.dedup, List.length_map]
  · rintro b c hbad rfl
    cases hcheck : c.check with
    | error o => exact ⟨o, rfl⟩
    | ok _ =>
      obtain ⟨e, he, hrecord⟩ := Directory.ofEntries_eq_error hbad
      have hall := (Config.checkUsers_eq_ok_iff.mp (Config.checkUsers_of_check hcheck)).1
      exact absurd (hall e he).2 hrecord

/-- Two entries for `admin` make one account, with the password and the permissions of the second.
The decoy's password opens nothing. -/
theorem accounts_kept_apart_twoAdmins :
    let entries : List UserEntry :=
      [⟨"admin", Directory.decoyRecord (List.replicate 16 1), [.input]⟩,
        ⟨"viewer", Directory.decoyRecord (List.replicate 16 2), [.capture]⟩,
        ⟨"admin", Directory.decoyRecord (List.replicate 16 3), [.query]⟩]
    ∃ d, Directory.ofEntries (List.replicate 16 0) entries = .ok d ∧ d.size = 2 ∧
      d.verify "admin" "unknown user" = true ∧ (d.permissions "admin").toList = [.query] ∧
      d.verify "root" "unknown user" = false := by
  intro entries
  have haccepted : ∀ e ∈ entries, Password.checkRecord e.record = .ok () := by
    have hdecoy : ∀ n,
        Password.checkRecord (Directory.decoyRecord (List.replicate 16 n)) = .ok () :=
      fun n => Directory.checkRecord_decoyRecord List.length_replicate
    simp only [entries, List.forall_mem_cons, hdecoy, List.not_mem_nil, false_imp_iff,
      implies_true, and_self]
  have hd : Directory.ofEntries (List.replicate 16 0) entries = .ok _ :=
    Directory.ofEntries_eq_ok_iff.mpr ⟨haccepted, rfl⟩
  have hkeeps := (accounts_kept_apart (List.replicate 16 0) entries).1 _ hd
  have hlast : IsLast entries "admin" ⟨"admin", Directory.decoyRecord (List.replicate 16 3),
      [.query]⟩ := ⟨rfl, entries.take 2, [], rfl, by simp⟩
  have hpassword : Password.verify "unknown user" (Directory.decoyRecord (List.replicate 16 3)) =
      true := Directory.verify_decoyRecord List.length_replicate
  refine ⟨_, hd, ?_, (hkeeps.verify _ _).mpr ⟨_, hlast, hpassword⟩, ?_, ?_⟩
  · rw [hkeeps.size]
    rfl
  · rfl
  · exact (hkeeps.unknown "root" (by simp [entries])).1 _

end RemoteDesk
