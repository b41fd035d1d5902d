import Mathlib.Data.List.Induction
import RemoteDesk.Proofs.Config.Accounts
import RemoteDesk.Proofs.Config.Entry

/-!
Records that are accepted at the start, and whether they are of use. To be accepted, a record needs
a name that begins like those of the family, a salt and a hash. To check a password, all of it has
to be read: the name and the version have to be known ones, the parameters have to be known and
within the limits, and the salt has to be bytes. An accepted record for which this goes well is
compared with a hash for every password. One for which it does not go well rejects every password.
-/
namespace RemoteDesk

/-! ### Names and numbers -/

theorem Argon2.Variant.ofName?_eq_some_iff {name : String} {v : Variant} :
    Variant.ofName? name = some v ↔ v.name = name := by
  constructor
  · intro h
    have hfound := List.find?_some h
    exact beq_iff_eq.mp hfound
  · rintro rfl
    cases v <;> decide

theorem Argon2.Variant.exists_name_eq_iff {name : String} :
    (∃ v : Variant, v.name = name) ↔ name ∈ ["argon2d", "argon2i", "argon2id"] := by
  constructor
  · rintro ⟨v, rfl⟩
    cases v <;> decide
  · simp only [List.mem_cons, List.not_mem_nil, or_false]
    rintro (rfl | rfl | rfl)
    · exact ⟨.d, rfl⟩
    · exact ⟨.i, rfl⟩
    · exact ⟨.id, rfl⟩

theorem Argon2.Version.ofNumber?_eq_some_iff {n : Nat} {v : Version} :
    Version.ofNumber? n = some v ↔ v.number = n := by
  constructor
  · intro h
    have hfound := List.find?_some h
    exact beq_iff_eq.mp hfound
  · rintro rfl
    cases v <;> decide

theorem Argon2.Version.exists_number_eq_iff {n : Nat} :
    (∃ v : Version, v.number = n) ↔ n ∈ [16, 19] := by
  constructor
  · rintro ⟨v, rfl⟩
    cases v <;> decide
  · simp only [List.mem_cons, List.not_mem_nil, or_false]
    rintro (rfl | rfl)
    · exact ⟨.older, rfl⟩
    · exact ⟨.newer, rfl⟩

namespace Password

open Argon2

theorem toOption_eq_some_iff {ε α : Type} {x : Except ε α} {a : α} :
    x.toOption = some a ↔ x = .ok a := by
  cases x <;> simp [Except.toOption]

/-! ### Parameters -/

/-- What the last parameter of a name says, where `usual` holds if there is none. -/
def lastOf {α : Type} (read : String → Option α) (params : List (String × String)) (name : String)
    (usual : α) : α :=
  ((params.reverse.lookup name).bind read).getD usual

/-- What parameters say about the cost and about the data that a hash depends on. -/
def said (params : List (String × String)) (length? : Option Nat) : Recorded :=
  ⟨⟨lastOf (fun s => (Phc.decimal s).toOption) params "m" Params.standard.memory,
      lastOf (fun s => (Phc.decimal s).toOption) params "t" Params.standard.passes,
      lastOf (fun s => (Phc.decimal s).toOption) params "p" Params.standard.lanes, length?⟩,
    lastOf (fun s => (Phc.readBytes 32 s).toOption) params "data" []⟩

/-- Parameters that records of the family have, with values that can be read. -/
def Known (q : String × String) : Prop :=
  (q.1 ∈ ["m", "t", "p"] ∧ ∃ n, Phc.decimal q.2 = .ok n) ∨
    (q.1 = "keyid" ∧ ∃ bs, Phc.readBytes 8 q.2 = .ok bs) ∨
      q.1 = "data" ∧ ∃ bs, Phc.readBytes 32 q.2 = .ok bs

theorem lastOf_concat {α : Type} (read : String → Option α) (params : List (String × String))
    (q : String × String) (name : String) (usual : α) :
    lastOf read (params ++ [q]) name usual =
      if q.1 = name then (read q.2).getD usual else lastOf read params name usual := by
  obtain ⟨other, value⟩ := q
  rw [lastOf, List.reverse_concat, List.lookup_cons]
  by_cases h : other = name
  · subst h
    simp
  · rw [beq_eq_false_iff_ne.mpr (Ne.symm h), if_neg h]
    rfl

variable {params : List (String × String)} {q : String × String} {length? : Option Nat}

theorem set_said (h : Known q) :
    (said params length?).set q.1 q.2 = some (said (params ++ [q]) length?) := by
  obtain ⟨name, value⟩ := q
  rcases h with ⟨hname, n, hvalue⟩ | ⟨hname, bs, hvalue⟩ | ⟨hname, bs, hvalue⟩
  · simp only [List.mem_cons, List.not_mem_nil, or_false] at hname hvalue
    rcases hname with rfl | rfl | rfl <;>
      simp [Recorded.set, said, lastOf_concat, hvalue, Except.toOption]
  · subst hname
    simp only at hvalue
    simp [Recorded.set, said, lastOf_concat, hvalue, Except.toOption]
  · subst hname
    simp only at hvalue
    simp [Recorded.set, said, lastOf_concat, hvalue, Except.toOption]

theorem known_of_set {r r' : Recorded} (h : r.set q.1 q.2 = some r') : Known q := by
  obtain ⟨name, value⟩ := q
  have hread {ε α : Type} {x : Except ε α} {f : α → Recorded}
      (hx : x.toOption.map f = some r') : ∃ a, x = .ok a := by
    obtain ⟨a, ha, -⟩ := Option.map_eq_some_iff.mp hx
    exact ⟨a, toOption_eq_some_iff.mp ha⟩
  simp only at h
  unfold Recorded.set at h
  split at h
  · exact .inl ⟨by simp, hread h⟩
  · exact .inl ⟨by simp, hread h⟩
  · exact .inl ⟨by simp, hread h⟩
  · exact .inr (.inl ⟨rfl, hread h⟩)
  · exact .inr (.inr ⟨rfl, hread h⟩)
  · contradiction

/-- One parameter after the other is taken into account if all are known; the last of a name
counts. -/
theorem foldlM_set_eq_some_iff {r : Recorded} :
    params.foldlM (fun r q => r.set q.1 q.2) (said [] length?) = some r ↔
      (∀ q ∈ params, Known q) ∧ r = said params length? := by
  induction params using List.reverseRecOn generalizing r with
  | nil => simp [eq_comm]
  | append_singleton params q ih =>
    simp only [List.foldlM_append, List.foldlM_cons, List.foldlM_nil, bind_pure,
      Option.bind_eq_bind, Option.bind_eq_some_iff, ih, List.mem_append, List.mem_singleton,
      or_imp, forall_and, forall_eq]
    constructor
    · rintro ⟨_, ⟨hknown, rfl⟩, hset⟩
      have hq := known_of_set hset
      rw [set_said hq] at hset
      exact ⟨⟨hknown, hq⟩, (Option.some.inj hset).symm⟩
    · rintro ⟨⟨hknown, hq⟩, rfl⟩
      exact ⟨_, ⟨hknown, rfl⟩, set_said hq⟩

variable {p : Phc}

theorem recorded_eq_some_iff {r : Recorded} :
    recorded p = some r ↔
      (∀ q ∈ p.params, Known q) ∧ r = said p.params (p.hash?.map (·.length)) :=
  foldlM_set_eq_some_iff

/-! ### What is hashed -/

/-- An input that a record and a password make. -/
structure Recomputes (p : Phc) (password : Bytes) (x : Input) : Prop where
  variant : x.variant.name = p.algorithm
  version : x.version.number = p.version?.getD 19
  known : ∀ q ∈ p.params, Known q
  said : ⟨x.params, x.associated⟩ = said p.params (p.hash?.map (·.length))
  limits : x.params.check = .ok x.params
  salt : ∃ text, p.salt? = some text ∧ Phc.readBytes 64 text = .ok x.salt
  leastSalt : leastSalt ≤ x.salt.length
  password : x.password = password

variable {password : Bytes} {x : Input}

/-- The version that is said, or else the newer one. -/
def versionOf : Option Nat → Option Version
  | none => some .newer
  | some n => Version.ofNumber? n

theorem versionOf_eq_some_iff {version? : Option Nat} {v : Version} :
    versionOf version? = some v ↔ v.number = version?.getD 19 := by
  cases version? with
  | none => cases v <;> decide
  | some n => exact Version.ofNumber?_eq_some_iff

theorem input?_eq (p : Phc) (password : Bytes) :
    input? p password = (do
      let variant ← Variant.ofName? p.algorithm
      let version ← versionOf p.version?
      let r ← recorded p
      let params ← r.params.check.toOption
      let salt ← (Phc.readBytes 64 (← p.salt?)).toOption
      if salt.length < leastSalt then none
      else some ⟨variant, version, params, password, salt, r.associated⟩) := by
  unfold input?
  cases p.version? <;> rfl

theorem eq_of_check {params checked : Params} (h : params.check = .ok checked) :
    checked = params := by
  unfold Params.check at h
  split_ifs at h
  exact (Except.ok.inj h).symm

theorem input?_eq_some_iff : input? p password = some x ↔ Recomputes p password x := by
  simp only [input?_eq, Option.bind_eq_bind, Option.bind_eq_some_iff, toOption_eq_some_iff,
    Variant.ofName?_eq_some_iff, versionOf_eq_some_iff, recorded_eq_some_iff]
  constructor
  · rintro ⟨v, hv, version, hversion, r, ⟨hknown, rfl⟩, params, hcheck, text, htext, salt, hsalt, h⟩
    split at h
    · contradiction
    · rename_i hleast
      obtain rfl := eq_of_check hcheck
      obtain rfl := Option.some.inj h
      exact ⟨hv, hversion, hknown, rfl, hcheck, ⟨text, htext, hsalt⟩, Nat.le_of_not_lt hleast, rfl⟩
  · rintro ⟨hv, hversion, hknown, hsaid, hlimits, ⟨text, htext, hsalt⟩, hleast, rfl⟩
    exact ⟨_, hv, _, hversion, _, ⟨hknown, hsaid⟩, _, hlimits, _, htext, _, hsalt,
      if_neg (Nat.not_lt.mpr hleast)⟩

/-! ### Records of use -/

/-- What checking a password against a record costs. -/
def cost (p : Phc) : Params := (said p.params (p.hash?.map (·.length))).params

/-- Everything in a record but its hash can be used. -/
structure Verifiable (p : Phc) : Prop where
  algorithm : p.algorithm ∈ ["argon2d", "argon2i", "argon2id"]
  version : ∀ n, p.version? = some n → n ∈ [16, 19]
  params : ∀ q ∈ p.params, Known q
  memory : 8 ≤ (cost p).memory ∧ 8 * (cost p).lanes ≤ (cost p).memory
  passes : 1 ≤ (cost p).passes
  lanes : 1 ≤ (cost p).lanes ∧ (cost p).lanes ≤ 16777215
  salt : ∃ text bs, p.salt? = some text ∧ Phc.readBytes 64 text = .ok bs ∧ leastSalt ≤ bs.length

theorem Recomputes.params_eq (h : Recomputes p password x) : x.params = cost p :=
  congrArg Recorded.params h.said

theorem Recomputes.verifiable (h : Recomputes p password x) : Verifiable p := by
  obtain ⟨text, htext, hsalt⟩ := h.salt
  have hlimits := Params.check_eq_ok_iff.mp h.limits
  rw [h.params_eq] at hlimits
  obtain ⟨hmemory, hroom, hpasses, hlanes, hmost, -⟩ := hlimits
  refine ⟨Variant.exists_name_eq_iff.mp ⟨_, h.variant⟩, fun n hn => ?_, h.known, ⟨hmemory, hroom⟩,
    hpasses, ⟨hlanes, hmost⟩, text, _, htext, hsalt, h.leastSalt⟩
  have hversion := h.version
  rw [hn] at hversion
  exact Version.exists_number_eq_iff.mp ⟨_, hversion⟩

/-- With a hash that is long enough, a record of use makes an input of every password. -/
theorem Verifiable.exists_recomputes {kept : Bytes} (h : Verifiable p) (hhash : p.hash? = some kept)
    (hkept : 4 ≤ kept.length) (password : Bytes) : ∃ x, Recomputes p password x := by
  obtain ⟨v, hv⟩ := Variant.exists_name_eq_iff.mpr h.algorithm
  obtain ⟨version, hversion⟩ : ∃ version : Version, version.number = p.version?.getD 19 := by
    cases hn : p.version? with
    | none => exact ⟨.newer, rfl⟩
    | some n => exact Version.exists_number_eq_iff.mpr (h.version n hn)
  obtain ⟨text, salt, htext, hsalt, hleast⟩ := h.salt
  have hlength : (cost p).length?.any (· < 4) = false := by
    simpa [cost, said, hhash] using hkept
  have hlimits : (cost p).check = .ok (cost p) := Params.check_eq_ok_iff.mpr
    ⟨h.memory.1, h.memory.2, h.passes, h.lanes.1, h.lanes.2, hlength⟩
  exact ⟨⟨v, version, cost p, password, salt,
    (said p.params (p.hash?.map (·.length))).associated⟩, hv, hversion, h.params, rfl, hlimits,
    ⟨text, htext, hsalt⟩, hleast, rfl⟩

/-! ### Records that are accepted -/

theorem leastHash_of_readHash {s : String} {kept : Bytes} (h : Phc.readHash s = .ok kept) :
    Phc.leastHash ≤ kept.length := by
  obtain ⟨bs, -, h⟩ := bind_eq_ok h
  split at h
  · contradiction
  · rename_i hleast
    obtain rfl := Except.ok.inj h
    exact Nat.le_of_not_lt hleast

theorem readHash_of_mapM {field? : Option String} {hash? : Option Bytes} {kept : Bytes}
    (h : field?.mapM Phc.readHash = .ok hash?) (hhash : hash? = some kept) :
    ∃ s, Phc.readHash s = .ok kept := by
  subst hhash
  cases field? with
  | none => exact absurd (Except.ok.inj h) (by simp)
  | some s =>
    obtain ⟨bs, hbs, h⟩ := map_eq_ok h
    exact ⟨s, hbs.trans (congrArg _ (Option.some.inj h))⟩

theorem leastHash_of_ofFields {fields : List String} {kept : Bytes}
    (h : Phc.ofFields fields = .ok p) (hhash : p.hash? = some kept) :
    Phc.leastHash ≤ kept.length := by
  unfold Phc.ofFields at h
  split at h
  · contradiction
  · obtain ⟨algorithm, -, h⟩ := bind_eq_ok h
    -- The hash is in the second of the fields that are left, whatever was taken before.
    generalize Phc.takeIf _ _ = taken at h
    obtain ⟨version, fields⟩ := taken
    obtain ⟨version?, -, h⟩ := bind_eq_ok h
    generalize Phc.takeIf _ _ = taken at h
    obtain ⟨params, fields⟩ := taken
    obtain ⟨params, -, h⟩ := bind_eq_ok h
    obtain ⟨salt?, -, h⟩ := bind_eq_ok h
    obtain ⟨hash?, hread, h⟩ := bind_eq_ok h
    split at h
    · contradiction
    · obtain rfl := Except.ok.inj h
      obtain ⟨field, hfield⟩ := readHash_of_mapM hread hhash
      exact leastHash_of_readHash hfield

theorem leastHash_of_parse {s : String} {kept : Bytes} (h : Phc.parse s = .ok p)
    (hhash : p.hash? = some kept) : Phc.leastHash ≤ kept.length := by
  unfold Phc.parse at h
  split at h
  · split at h
    · exact leastHash_of_ofFields h hhash
    · contradiction
  · contradiction

variable {record : String}

theorem checkRecord_eq_ok_iff :
    checkRecord record = .ok () ↔ ∃ p, Phc.parse record = .ok p ∧
      p.algorithm.startsWith "argon2" = true ∧ p.salt?.isSome = true ∧ p.hash?.isSome = true := by
  unfold checkRecord
  cases Phc.parse record with
  | error e => simp
  | ok p =>
    simp only [Except.ok.injEq, exists_eq_left']
    cases p.algorithm.startsWith "argon2" with
    | false => simp
    | true => cases p.salt? <;> cases p.hash? <;> simp

/-- A record that was accepted: on its own, in settings that can be run, or in a list that accounts
were made of. -/
inductive Accepted (record : String) : Prop
  | alone (h : checkRecord record = .ok ())
  | inSettings (c : Config) (e : UserEntry) (h : c.check = .ok ()) (he : e ∈ c.users)
      (hrecord : e.record = record)
  | inDirectory (salt : Bytes) (entries : List UserEntry) (d : Directory) (e : UserEntry)
      (h : Directory.ofEntries salt entries = .ok d) (he : e ∈ entries)
      (hrecord : e.record = record)

theorem Accepted.checkRecord (h : Accepted record) : checkRecord record = .ok () := by
  cases h with
  | alone h => exact h
  | inSettings c e h he hrecord =>
    subst hrecord
    exact ((Config.checkUsers_eq_ok_iff.mp (Config.checkUsers_of_check h)).1 e he).2
  | inDirectory salt entries d e h he hrecord =>
    subst hrecord
    exact (Directory.ofEntries_eq_ok_iff.mp h).1 e he

theorem input?_eq_none (h : ¬Verifiable p) (password : Bytes) : input? p password = none := by
  cases hx : input? p password with
  | none => rfl
  | some x => exact absurd (input?_eq_some_iff.mp hx).verifiable h

theorem verify_eq_false (hparse : Phc.parse record = .ok p) (h : ¬Verifiable p)
    (password : String) : verify password record = false := by
  simp only [verify, hparse, isRecordOf, input?_eq_none h]

/-- The text of an accepted record either leads to a comparison of hashes for every password, or it
rejects every password. -/
theorem accepted_compares_or_rejects (h : Accepted record) :
    ∃ p kept, Phc.parse record = .ok p ∧ p.hash? = some kept ∧
      (Verifiable p → ∀ password, ∃ x, input? p (utf8 password) = some x ∧
        Recomputes p (utf8 password) x ∧ verify password record = (Argon2.hash x == kept)) ∧
      (¬Verifiable p → ∀ password, input? p (utf8 password) = none ∧
        verify password record = false) := by
  obtain ⟨p, hparse, -, -, hsome⟩ := checkRecord_eq_ok_iff.mp h.checkRecord
  obtain ⟨kept, hhash⟩ := Option.isSome_iff_exists.mp hsome
  have hkept : 4 ≤ kept.length := Nat.le_trans (by decide) (leastHash_of_parse hparse hhash)
  refine ⟨p, kept, hparse, hhash, fun hverifiable password => ?_, fun hnot password =>
    ⟨input?_eq_none hnot _, verify_eq_false hparse hnot password⟩⟩
  obtain ⟨x, hx⟩ := hverifiable.exists_recomputes hhash hkept (utf8 password)
  have hinput := input?_eq_some_iff.mpr hx
  refine ⟨x, hinput, hx, ?_⟩
  simp only [verify, hparse, isRecordOf, hinput, hhash]

/-! ### Two records -/

/-- A record at the least cost, of an algorithm and a version. -/
def sample (algorithm : String) (version : Nat) : Phc :=
  ⟨algorithm, some version, [("m", "8"), ("t", "1"), ("p", "1")], some "c2FsdHNhbHRzYWx0c2FsdA",
    some [225, 246, 11, 163, 29, 144, 148, 247, 176, 226, 72, 53, 138, 77, 254, 199, 167, 21, 174,
      104, 47, 238, 146, 171, 211, 185, 222, 33, 146, 217, 69, 77]⟩

variable {algorithm : String} {version : Nat}

theorem parse_sample (hname : Phc.readName algorithm = .ok algorithm)
    (hversion : version < 4294967296) :
    Phc.parse (sample algorithm version).render = .ok (sample algorithm version) :=
  Phc.Fit.parse_render {
    algorithm := hname
    version := hversion
    some_param := by simp
    legible := by
      unfold Phc.Legible
      decide +kernel
    room := by decide +kernel
    salt := by decide +kernel
    least := by decide
    most := by decide }

theorem checkRecord_sample (hname : Phc.readName algorithm = .ok algorithm)
    (hversion : version < 4294967296) (hfamily : algorithm.startsWith "argon2" = true) :
    checkRecord (sample algorithm version).render = .ok () :=
  checkRecord_eq_ok_iff.mpr ⟨_, parse_sample hname hversion, hfamily, rfl, rfl⟩

theorem said_sample : said (sample algorithm version).params (some 32) =
    ⟨⟨8, 1, 1, some 32⟩, []⟩ := by
  have hsaid : said [("m", "8"), ("t", "1"), ("p", "1")] (some 32) = ⟨⟨8, 1, 1, some 32⟩, []⟩ := by
    decide +kernel
  exact hsaid

theorem known_sample : ∀ q ∈ (sample algorithm version).params, Known q := by
  have hmemory : Phc.decimal "8" = .ok 8 := by decide +kernel
  have hone : Phc.decimal "1" = .ok 1 := by decide +kernel
  simp [sample, Known, hmemory, hone]

theorem verifiable_sample (hname : algorithm ∈ ["argon2d", "argon2i", "argon2id"])
    (hversion : version ∈ [16, 19]) : Verifiable (sample algorithm version) := by
  have hcost : cost (sample algorithm version) = ⟨8, 1, 1, some 32⟩ :=
    congrArg Recorded.params said_sample
  refine ⟨hname, fun n hn => Option.some.inj hn ▸ hversion, known_sample, ?_, ?_, ?_,
    _, utf8 "saltsaltsaltsalt", rfl, by decide +kernel, by decide⟩
  all_goals simp [hcost]

/-- A record that the server would not make itself, but can check. -/
theorem accepted_compares_or_rejects_older :
    let record :=
      "$argon2d$v=16$m=8,t=1,p=1$c2FsdHNhbHRzYWx0c2FsdA$4fYLox2QlPew4kg1ik3+x6cVrmgv7pKr07neIZLZRU0"
    checkRecord record = .ok () ∧ ∃ x kept, x.variant.name = "argon2d" ∧ x.version.number = 16 ∧
      x.params = ⟨8, 1, 1, some 32⟩ ∧ verify "pw" record = (Argon2.hash x == kept) := by
  intro record
  have htext : (sample "argon2d" 16).render = record := by decide +kernel
  have haccepted : checkRecord record = .ok () :=
    htext ▸ checkRecord_sample (by decide) (by decide) (by decide +kernel)
  have hparse : Phc.parse record = .ok (sample "argon2d" 16) :=
    htext ▸ parse_sample (by decide) (by decide)
  obtain ⟨p, kept, hp, -, hcompares, -⟩ := accepted_compares_or_rejects (.alone haccepted)
  obtain rfl := Except.ok.inj (hp.symm.trans hparse)
  obtain ⟨x, -, hx, hverify⟩ := hcompares (verifiable_sample (by decide) (by decide)) "pw"
  exact ⟨haccepted, x, kept, hx.variant, hx.version,
    hx.params_eq.trans (congrArg Recorded.params said_sample), hverify⟩

/-- A record of an algorithm that there is not is accepted for how its name begins. It makes an
account that no password opens. -/
theorem accepted_unusable :
    let record :=
      "$argon2x$v=19$m=8,t=1,p=1$c2FsdHNhbHRzYWx0c2FsdA$4fYLox2QlPew4kg1ik3+x6cVrmgv7pKr07neIZLZRU0"
    let e : UserEntry := ⟨"u", record, [.input]⟩
    checkRecord record = .ok () ∧ ({ users := [e] } : Config).check = .ok () ∧
      (∃ p, Phc.parse record = .ok p ∧ ∀ password, input? p (utf8 password) = none) ∧
      ∀ salt, ∃ d, Directory.ofEntries salt [e] = .ok d ∧ d.size = 1 ∧
        ∀ password, d.verify "u" password = false := by
  intro record e
  have htext : (sample "argon2x" 19).render = record := by decide +kernel
  have haccepted : checkRecord record = .ok () :=
    htext ▸ checkRecord_sample (by decide) (by decide) (by decide +kernel)
  have hparse : Phc.parse record = .ok (sample "argon2x" 19) :=
    htext ▸ parse_sample (by decide) (by decide)
  have hnot : ¬Verifiable (sample "argon2x" 19) := fun h => absurd h.algorithm (by decide)
  refine ⟨haccepted, Config.check_singleton (by decide) haccepted,
    ⟨_, hparse, fun password => input?_eq_none hnot _⟩, fun salt => ?_⟩
  have hd : Directory.ofEntries salt [e] = .ok _ :=
    Directory.ofEntries_eq_ok_iff.mpr ⟨List.forall_mem_singleton.mpr haccepted, rfl⟩
  have hlast : IsLast [e] "u" e := ⟨rfl, [], [], rfl, by simp⟩
  refine ⟨_, hd, rfl, fun password => ?_⟩
  rw [Directory.verify_of_isLast hd hlast, verify_eq_false hparse hnot]

end Password

end RemoteDesk
