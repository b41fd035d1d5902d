import RemoteDesk.Config.Parser
import RemoteDesk.Proofs.Toml.Kinds

/-!
Settings as an overlay. The keys of a document are listed with the types, ranges and defaults of
their values; a section that is absent is an empty one. Reading takes just the documents whose
known keys fit, and gives what they say with the defaults under it.
-/
namespace RemoteDesk

open Toml

/-! ### Values of one type -/

namespace Toml.Kind

def string : Kind String := text "a string"

def path : Kind String := text "path string"

def int32 : Kind Int32 :=
  number .i32 Int32.ofInt Int32.toInt (fun _ _ => Int32.toInt_inj.mp) fun _ hleast hmost =>
    Int32.toInt_ofInt_of_le hleast (Int.lt_add_one_of_le hmost)

def uint16 : Kind UInt16 :=
  number .u16 (fun n => UInt16.ofNat n.toNat) (fun n => n.toNat)
    (fun _ _ h => UInt16.toNat_inj.mp (Int.ofNat_inj.mp h)) fun n hleast hmost => by
      have hlt : n.toNat < UInt16.size := by
        simp only [IntegerType.u16, UInt16.size] at hleast hmost ⊢
        omega
      rw [UInt16.toNat_ofNat_of_lt' hlt, Int.toNat_of_nonneg hleast]

def uint32 : Kind UInt32 :=
  number .u32 (fun n => UInt32.ofNat n.toNat) (fun n => n.toNat)
    (fun _ _ h => UInt32.toNat_inj.mp (Int.ofNat_inj.mp h)) fun n hleast hmost => by
      have hlt : n.toNat < UInt32.size := by
        simp only [IntegerType.u32, UInt32.size] at hleast hmost ⊢
        omega
      rw [UInt32.toNat_ofNat_of_lt' hlt, Int.toNat_of_nonneg hleast]

def uint64 : Kind UInt64 :=
  number .u64 (fun n => UInt64.ofNat n.toNat) (fun n => n.toNat)
    (fun _ _ h => UInt64.toNat_inj.mp (Int.ofNat_inj.mp h)) fun n hleast hmost => by
      have hlt : n.toNat < UInt64.size := by
        simp only [IntegerType.u64, UInt64.size] at hleast hmost ⊢
        omega
      rw [UInt64.toNat_ofNat_of_lt' hlt, Int.toNat_of_nonneg hleast]

/-- Counts of things in memory. -/
def size : Kind Nat :=
  number .usize Int.toNat (fun n => n) (fun _ _ => Int.ofNat_inj.mp) fun _ hleast _ =>
    Int.toNat_of_nonneg hleast

/-- Permissions by their names. -/
def permission : Kind Permission :=
  choice Config.permissionChoices Permission.name fun s p => by
    constructor
    · intro h
      obtain ⟨before, after, hsplit, -⟩ := List.lookup_eq_some_iff.mp h
      have hmem : (s, p) ∈ Config.permissionChoices := by
        rw [hsplit]
        exact List.mem_append_right before List.mem_cons_self
      obtain ⟨q, -, hq⟩ := List.mem_map.mp hmem
      obtain ⟨rfl, rfl⟩ := Prod.mk.inj hq
      rfl
    · rintro rfl
      cases p <;> rfl

end Toml.Kind

open Toml.Kind

/-! ### Displays and windows -/

namespace Desktop

def Point.columns : List (Column Point) := [.needed "x" int32 (·.x), .needed "y" int32 (·.y)]

def Point.kind : Kind Point :=
  .record "Point" columns mk (by decide) (fun _ _ => ⟨rfl, rfl, trivial⟩) fun _ => rfl

def Display.columns : List (Column Display) :=
  [.needed "id" uint32 (·.id), .needed "name" string (·.name), .needed "width" uint32 (·.width),
    .needed "height" uint32 (·.height), .needed "x" int32 (·.x), .needed "y" int32 (·.y),
    .needed "is_primary" flag (·.isPrimary)]

def Display.kind : Kind Display :=
  .record "Display" columns mk (by decide)
    (fun _ _ _ _ _ _ _ => ⟨rfl, rfl, rfl, rfl, rfl, rfl, rfl, trivial⟩) fun _ => rfl

def Window.columns : List (Column Window) :=
  [.needed "id" uint64 (·.id), .needed "title" string (·.title), .needed "width" uint32 (·.width),
    .needed "height" uint32 (·.height), .needed "position" Point.kind (·.position),
    .withDefault "process_name" string (·.processName) "" (.text "") trivial rfl]

def Window.kind : Kind Window :=
  .record "Window" columns mk (by decide)
    (fun _ _ _ _ _ _ => ⟨rfl, rfl, rfl, rfl, rfl, rfl, trivial⟩) fun _ => rfl

end Desktop

/-! ### Sections -/

namespace Config

def Server.columns : List (Column Server) :=
  [.withDefault "bind_address" string (·.bindAddress) "0.0.0.0" (.text "0.0.0.0") trivial rfl,
    .withDefault "port" uint16 (·.port) 8080 (.integer 8080) trivial rfl,
    .withDefault "max_connections" size (·.maxConnections) 100 (.integer 100) trivial rfl,
    .withDefault "idle_timeout_secs" uint64 (·.idleTimeoutSecs) 300 (.integer 300) trivial rfl,
    .withDefault "handshake_timeout_secs" uint64 (·.handshakeTimeoutSecs) 10 (.integer 10)
      trivial rfl,
    .withDefault "max_frame_bytes" size (·.maxFrameBytes) 1048576 (.integer 1048576) trivial rfl,
    .withDefault "allow_plaintext" flag (·.allowPlaintext) false (.boolean false) trivial rfl,
    .withDefault "log_level" string (·.logLevel) "info" (.text "info") trivial rfl]

def Server.kind : Kind Server :=
  .record "ServerConfig" columns mk (by decide)
    (fun _ _ _ _ _ _ _ _ => ⟨rfl, rfl, rfl, rfl, rfl, rfl, rfl, rfl, trivial⟩) fun _ => rfl

def Certificate.columns : List (Column Certificate) :=
  [.needed "cert_path" path (·.certPath), .needed "key_path" path (·.keyPath)]

def Certificate.kind : Kind Certificate :=
  .record "TlsConfig" columns mk (by decide) (fun _ _ => ⟨rfl, rfl, trivial⟩) fun _ => rfl

def Login.columns : List (Column Login) :=
  [.withDefault "token_ttl_secs" uint64 (·.tokenTtlSecs) 3600 (.integer 3600) trivial rfl,
    .withDefault "free_attempts" uint32 (·.freeAttempts) 5 (.integer 5) trivial rfl,
    .withDefault "backoff_base_ms" uint64 (·.backoffBaseMs) 1000 (.integer 1000) trivial rfl,
    .withDefault "backoff_max_secs" uint64 (·.backoffMaxSecs) 60 (.integer 60) trivial rfl]

def Login.kind : Kind Login :=
  .record "AuthConfig" columns mk (by decide)
    (fun _ _ _ _ => ⟨rfl, rfl, rfl, rfl, trivial⟩) fun _ => rfl

def Commands.columns : List (Column Commands) :=
  [.withDefault "max_commands_per_window" uint32 (·.maxPerWindow) 600 (.integer 600) trivial rfl,
    .withDefault "window_secs" uint64 (·.windowSecs) 60 (.integer 60) trivial rfl,
    .withDefault "duplicate_window" size (·.duplicateWindow) 1024 (.integer 1024) trivial rfl]

def Commands.kind : Kind Commands :=
  .record "LimitsConfig" columns mk (by decide)
    (fun _ _ _ => ⟨rfl, rfl, rfl, trivial⟩) fun _ => rfl

def Capture.columns : List (Column Capture) :=
  [.withDefault "max_inline_bytes" size (·.maxInlineBytes) 8388608 (.integer 8388608) trivial rfl]

def Capture.kind : Kind Capture :=
  .record "CaptureConfig" columns mk (by decide) (fun _ => ⟨rfl, trivial⟩) fun _ => rfl

def Layout.columns : List (Column Layout) :=
  [.withDefault "displays" (list Desktop.Display.kind) (·.displays) [] (.list [])
      (Shape.tabular_nil _) rfl,
    .withDefault "windows" (list Desktop.Window.kind) (·.windows) [] (.list [])
      (Shape.tabular_nil _) rfl]

def Layout.kind : Kind Layout :=
  .record "DesktopConfig" columns mk (by decide) (fun _ _ => ⟨rfl, rfl, trivial⟩) fun _ => rfl

def entryColumns : List (Column UserEntry) :=
  [.needed "username" string (·.username), .needed "password_hash" string (·.record),
    .withDefault "permissions" (list permission) (·.permissions) [] (.list [])
      (Shape.tabular_nil _) rfl]

def entryKind : Kind UserEntry :=
  .record "UserEntry" entryColumns .mk (by decide) (fun _ _ _ => ⟨rfl, rfl, rfl, trivial⟩)
    fun _ => rfl

/-- The keys of a document. What an absent section stands for is an empty one. -/
def columns : List (Column Config) :=
  [.withDefault "server" Server.kind (·.server) {} (.table .heading []) (Shape.tabular_empty _) rfl,
    .optional "tls" Certificate.kind (·.certificate),
    .withDefault "auth" Login.kind (·.login) {} (.table .heading []) (Shape.tabular_empty _) rfl,
    .withDefault "limits" Commands.kind (·.commands) {} (.table .heading [])
      (Shape.tabular_empty _) rfl,
    .withDefault "capture" Capture.kind (·.capture) {} (.table .heading [])
      (Shape.tabular_empty _) rfl,
    .withDefault "desktop" Layout.kind (·.layout) {} (.table .heading []) (Shape.tabular_empty _)
      rfl,
    .withDefault "users" (list entryKind) (·.users) [] (.list []) (Shape.tabular_nil _) rfl]

def kind : Kind Config :=
  .record "AppConfig" columns mk (by decide)
    (fun _ _ _ _ _ _ _ => ⟨rfl, rfl, rfl, rfl, rfl, rfl, rfl, trivial⟩) fun _ => rfl

/-! ### Documents -/

theorem parse_eq_ok_iff {text : String} {document : Entries} {c : Config}
    (h : Toml.parse text = some document) :
    parse text = .ok c ↔ kind.read (.table .heading document) = .ok c := by
  have hparse : parse text = (ofToml document).mapError .mismatch := by rw [parse, h]
  show parse text = .ok c ↔ ofToml document = .ok c
  rw [hparse]
  cases ofToml document with
  | error m => exact ⟨nofun, nofun⟩
  | ok c' =>
    exact ⟨fun h => congrArg _ (Except.ok.inj h), fun h => congrArg _ (Except.ok.inj h)⟩

/-- A document with its sections, accounts, displays, windows and positions written as tables, and
its permissions as texts, is taken just if what is there under each known key has the type and the
range of the key, and no key that is needed is left out. The settings are then what the document
says, completed with the defaults. Documents that say the same under each known key are taken for
the same: the keys of a table may be in any order, and those whose values are defaults may be left
out, as may a section that is left without keys. -/
theorem parse_overlay {text : String} {document : Entries} (hparse : Toml.parse text = some document)
    (htabular : kind.shape.tabular (.table .heading document)) :
    ((∃ c, parse text = .ok c) ↔ kind.shape.fits (.table .heading document)) ∧
      (∀ c, parse text = .ok c ↔ kind.shape.fits (.table .heading document) ∧
        kind.write c = kind.shape.complete (.table .heading document)) ∧
      ∀ other found, Toml.parse other = some found →
        kind.shape.tabular (.table .heading found) →
        kind.shape.alike (.table .heading document) (.table .heading found) →
        ∀ c, parse text = .ok c ↔ parse other = .ok c := by
  have hkeys : Toml.Distinct (.table .heading document) :=
    distinct_table.mpr (distinct_of_parse hparse)
  have hread : ∀ c, parse text = .ok c ↔ kind.shape.fits (.table .heading document) ∧
      kind.write c = kind.shape.complete (.table .heading document) := fun c => by
    rw [parse_eq_ok_iff hparse, kind.eq_ok_iff hkeys htabular]
  refine ⟨⟨?_, fun hfits => ?_⟩, hread, fun other found hother htabular' halike c => ?_⟩
  · rintro ⟨c, hc⟩
    exact ((hread c).mp hc).1
  · obtain ⟨c, hc⟩ := kind.exists_ok hkeys htabular hfits
    exact ⟨c, (parse_eq_ok_iff hparse).mpr hc⟩
  · have hkeys' : Toml.Distinct (.table .heading found) :=
      distinct_table.mpr (distinct_of_parse hother)
    rw [parse_eq_ok_iff hparse, parse_eq_ok_iff hother]
    exact kind.read_congr hkeys hkeys' htabular htabular' halike c

/-! ### A document in two forms -/

/-- Sections whose values are all single ones need only be tables. -/
theorem Server.tabular (entries : Entries) : kind.shape.tabular (.table .heading entries) := by
  refine ⟨entries, rfl, ?_⟩
  simp only [columns, List.map_cons, List.forall_mem_cons, List.map_nil]
  refine ⟨?_, ?_, ?_, ?_, ?_, ?_, ?_, ?_, List.forall_mem_nil _⟩
  all_goals exact fun _ _ => trivial

theorem Login.tabular (entries : Entries) : kind.shape.tabular (.table .heading entries) := by
  refine ⟨entries, rfl, ?_⟩
  simp only [columns, List.map_cons, List.forall_mem_cons, List.map_nil]
  refine ⟨?_, ?_, ?_, ?_, List.forall_mem_nil _⟩
  all_goals exact fun _ _ => trivial

theorem entry_tabular {entries : Entries} (h : entries.lookup "permissions" = none) :
    entryKind.shape.tabular (.table .heading entries) := by
  refine ⟨entries, rfl, ?_⟩
  simp only [entryColumns, List.map_cons, List.forall_mem_cons, List.map_nil]
  refine ⟨fun _ _ => trivial, fun _ _ => trivial, ?_, List.forall_mem_nil _⟩
  intro v (hv : entries.lookup "permissions" = some v)
  rw [h] at hv
  contradiction

/-- Sections and keys out of order, a key that is not known, and two values that are defaults. -/
def roundabout : String :=
  "colour = \"blue\"\n[[users]]\npassword_hash = \"record\"\nusername = \"ann\"\n" ++
    "[auth]\nfree_attempts = 5\n[server]\nlog_level = \"info\"\nport = 9443\n"

def straight : String :=
  "[server]\nport = 9443\n[[users]]\nusername = \"ann\"\npassword_hash = \"record\"\n"

def roundaboutEntries : Entries :=
  [("colour", .text "blue"),
    ("users", .rows [[("password_hash", .text "record"), ("username", .text "ann")]]),
    ("auth", .table .heading [("free_attempts", .integer 5)]),
    ("server", .table .heading [("log_level", .text "info"), ("port", .integer 9443)])]

def straightEntries : Entries :=
  [("server", .table .heading [("port", .integer 9443)]),
    ("users", .rows [[("username", .text "ann"), ("password_hash", .text "record")]])]

set_option maxRecDepth 8000 in
theorem parse_roundabout : Toml.parse roundabout = some roundaboutEntries := rfl

set_option maxRecDepth 8000 in
theorem parse_straight : Toml.parse straight = some straightEntries := rfl

theorem tabular_roundabout : kind.shape.tabular (.table .heading roundaboutEntries) := by
  refine ⟨roundaboutEntries, rfl, ?_⟩
  simp only [columns, List.map_cons, List.forall_mem_cons, List.map_nil]
  refine ⟨?_, fun _ => nofun, ?_, fun _ => nofun, fun _ => nofun, fun _ => nofun, ?_,
    List.forall_mem_nil _⟩
  · rintro v h
    obtain rfl := Option.some.inj h
    exact Server.tabular _
  · rintro v h
    obtain rfl := Option.some.inj h
    exact Login.tabular _
  · rintro v h items hitems
    obtain rfl := Option.some.inj h
    obtain rfl := Option.some.inj hitems
    exact List.forall_mem_cons.mpr ⟨entry_tabular rfl, List.forall_mem_nil _⟩

theorem tabular_straight : kind.shape.tabular (.table .heading straightEntries) := by
  refine ⟨straightEntries, rfl, ?_⟩
  simp only [columns, List.map_cons, List.forall_mem_cons, List.map_nil]
  refine ⟨?_, fun _ => nofun, fun _ => nofun, fun _ => nofun, fun _ => nofun, fun _ => nofun, ?_,
    List.forall_mem_nil _⟩
  · rintro v h
    obtain rfl := Option.some.inj h
    exact Server.tabular _
  · rintro v h items hitems
    obtain rfl := Option.some.inj h
    obtain rfl := Option.some.inj hitems
    exact List.forall_mem_cons.mpr ⟨entry_tabular rfl, List.forall_mem_nil _⟩

theorem alike_roundabout_straight :
    kind.shape.alike (.table .heading roundaboutEntries) (.table .heading straightEntries) := by
  have hserver : Server.kind.shape.alike
      (.table .heading [("log_level", .text "info"), ("port", .integer 9443)])
      (.table .heading [("port", .integer 9443)]) :=
    Shape.alike_filter (k := (Server.columns.map (·.known))[7]) (by decide) (List.getElem_mem _)
      rfl rfl rfl
  have hlogin : Login.kind.shape.alike (.table .heading [("free_attempts", .integer 5)])
      (.table .heading []) :=
    Shape.alike_filter (k := (Login.columns.map (·.known))[1]) (by decide) (List.getElem_mem _)
      rfl rfl rfl
  have hann : entryKind.shape.alike
      (.table .heading [("password_hash", .text "record"), ("username", .text "ann")])
      (.table .heading [("username", .text "ann"), ("password_hash", .text "record")]) :=
    Shape.alike_of_perm (by decide) (.swap _ _ _)
  refine .inr ⟨roundaboutEntries, straightEntries, rfl, rfl, ?_⟩
  simp only [columns, List.map_cons, List.forall_mem_cons, List.map_nil]
  exact ⟨.some hserver, .none, .some hlogin, .some (.inl rfl), .some (.inl rfl),
    .some (.inl rfl), .some (.inr ⟨_, _, rfl, rfl, .cons hann .nil⟩), List.forall_mem_nil _⟩

set_option maxRecDepth 8000 in
theorem parse_overlay_roundabout :
    parse roundabout = .ok { server := { port := 9443 }, users := [⟨"ann", "record", []⟩] } :=
  ((parse_overlay parse_roundabout tabular_roundabout).2.2 straight straightEntries parse_straight
    tabular_straight alike_roundabout_straight _).mpr rfl

end Config

end RemoteDesk
