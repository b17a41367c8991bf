/-
A connection's configuration on its way to libwebrtc.

`NativeConfig` owns C strings and arrays of pointers to them, and hands out a struct of
pointers and integers; `applyRtcConfig` reads that struct back and sets what it says.  A
pointer is the place of what it points at in the `NativeConfig`, and reading anywhere else is
`none`.  So that nothing is read outside of what is owned is part of what is proved.

What is absent has a number on the way: a port of zero is none at all.  But zero is a port
that can be asked for, and then the range is dropped without a word (`applied_iff`).

The two settings that are not libwebrtc's, `frame_metadata` and `dc_chunking`, do not go this
way.

`toNative` fails for a string with a NUL byte in it and for a range without its other end or
upside down, and for nothing else (`RtcConfiguration.Rejected`).  For the rest, `Applied`
lists what the configuration of libwebrtc is to have, field by field, and the fields that no
setting reaches stay as they were.
-/
import Mathlib.Data.List.ReduceOption
import ReactorWebrtc.Chunking.Frame
import ReactorWebrtc.Lib.Traverse

namespace ReactorWebrtc

/-- A single ICE (STUN/TURN) server.  A string is its bytes. -/
structure IceServer where
  urls : List Bytes := []
  username : Bytes := []
  password : Bytes := []
  deriving DecidableEq, Repr

inductive ContinualGatheringPolicy
  | gatherOnce
  | gatherContinually
  deriving DecidableEq, Repr

inductive BundlePolicy
  | balanced
  | maxBundle
  | maxCompat
  deriving DecidableEq, Repr

inductive TcpCandidatePolicy
  | disabled
  | enabled
  deriving DecidableEq, Repr

inductive IceTransportsType
  | all
  | relay
  | noHost
  | none
  deriving DecidableEq, Repr

def ContinualGatheringPolicy.toWire : ContinualGatheringPolicy → Int
  | .gatherOnce => 0
  | .gatherContinually => 1

def BundlePolicy.toWire : BundlePolicy → Int
  | .balanced => 0
  | .maxBundle => 1
  | .maxCompat => 2

def TcpCandidatePolicy.toWire : TcpCandidatePolicy → Int
  | .disabled => 0
  | .enabled => 1

def IceTransportsType.toWire : IceTransportsType → Int
  | .all => 0
  | .relay => 1
  | .noHost => 2
  | .none => 3

structure RtcConfiguration where
  iceServers : List IceServer := []
  continualGatheringPolicy : ContinualGatheringPolicy := .gatherOnce
  iceTransportType : IceTransportsType := .all
  minPort : Option UInt16 := none
  maxPort : Option UInt16 := none
  bundlePolicy : BundlePolicy := .balanced
  iceConnectionReceivingTimeoutMs : Option Int := none
  iceCheckIntervalStrongConnectivityMs : Option Int := none
  tcpCandidatePolicy : TcpCandidatePolicy := .disabled
  sctpSnap : Bool := false
  deriving DecidableEq, Repr

/-- The bytes of a C string before its NUL. -/
structure CString where
  bytes : Bytes
  nul : 0 ∉ bytes

def CString.new (s : Bytes) : Option CString := if h : 0 ∉ s then some ⟨s, h⟩ else none

/-- What is in memory. -/
def CString.buffer (c : CString) : Bytes := c.bytes ++ [0]

/-- Where a C string is. -/
inductive CharPtr
  | url (server i : Nat)
  | username (server : Nat)
  | password (server : Nat)
  deriving DecidableEq, Repr

/-- `urls` says whose array it points at. -/
structure ReactorIceServer where
  urls : Option Nat
  urlsLen : Nat
  username : Option CharPtr
  password : Option CharPtr
  deriving DecidableEq, Repr

/-- The struct that is passed to the glue, but for the pointer to the servers. -/
structure ReactorRtcConfig where
  serversLen : Nat
  iceTransportType : Int
  continualGatheringPolicy : Int
  minPort : Int
  maxPort : Int
  bundlePolicy : Int
  iceConnectionReceivingTimeoutMs : Int
  iceCheckIntervalStrongConnectivityMs : Int
  tcpCandidatePolicy : Int
  sctpSnap : Int
  deriving DecidableEq, Repr

/-- What can be read through pointers. -/
structure Memory where
  server : Nat → Option ReactorIceServer
  url : Nat → Nat → Option (Option CharPtr)
  chars : CharPtr → Option Bytes

structure NativeConfig where
  urls : List (List CString)
  credentials : List (CString × CString)
  urlPtrs : List (List CharPtr)
  servers : List ReactorIceServer
  iceTransportType : Int
  continualGatheringPolicy : Int
  minPort : Int
  maxPort : Int
  bundlePolicy : Int
  iceConnectionReceivingTimeoutMs : Int
  iceCheckIntervalStrongConnectivityMs : Int
  tcpCandidatePolicy : Int
  sctpSnap : Int

namespace NativeConfig

/-- A string of a server, or the error that names its field. -/
def cstring (field : String) (s : Bytes) : Except String CString :=
  match CString.new s with
  | some c => .ok c
  | none => .error ("ICE server " ++ field ++ " contains a NUL byte")

/-- The strings of one server. -/
def ownServer (server : IceServer) : Except String (List CString × CString × CString) := do
  let entry ← server.urls.mapM (cstring "URL")
  let username ← cstring "username" server.username
  let password ← cstring "password" server.password
  pure (entry, username, password)

def portRange : Option UInt16 → Option UInt16 → Except String (Int × Int)
  | none, none => .ok (0, 0)
  | some lo, some hi =>
    if lo ≤ hi then .ok (lo.toNat, hi.toNat)
    else .error ("min_port (" ++ toString lo.toNat ++ ") must be <= max_port (" ++
      toString hi.toNat ++ ")")
  | _, _ => .error "port range requires both min_port and max_port"

/-- The pointers to the strings of each server, and the numbers for the rest. -/
def marshal (config : RtcConfiguration) (owned : List (List CString × CString × CString))
    (minPort maxPort : Int) : NativeConfig :=
  let urls := owned.map Prod.fst
  let credentials := owned.map Prod.snd
  let urlPtrs := urls.mapIdx fun i entry => entry.mapIdx fun j _ => CharPtr.url i j
  let servers := (urlPtrs.zip credentials).mapIdx fun i (ptrs, _) =>
    { urls := some i
      urlsLen := ptrs.length
      username := some (.username i)
      password := some (.password i) }
  { urls, credentials, urlPtrs, servers, minPort, maxPort
    iceTransportType := config.iceTransportType.toWire
    continualGatheringPolicy := config.continualGatheringPolicy.toWire
    bundlePolicy := config.bundlePolicy.toWire
    iceConnectionReceivingTimeoutMs := config.iceConnectionReceivingTimeoutMs.getD (-1)
    iceCheckIntervalStrongConnectivityMs :=
      config.iceCheckIntervalStrongConnectivityMs.getD (-1)
    tcpCandidatePolicy := config.tcpCandidatePolicy.toWire
    sctpSnap := if config.sctpSnap then 1 else 0 }

def new (config : RtcConfiguration) : Except String NativeConfig := do
  let owned ← config.iceServers.mapM ownServer
  let (minPort, maxPort) ← portRange config.minPort config.maxPort
  pure (marshal config owned minPort maxPort)

/-- The struct to pass to the glue. -/
def config (n : NativeConfig) : ReactorRtcConfig where
  serversLen := n.servers.length
  iceTransportType := n.iceTransportType
  continualGatheringPolicy := n.continualGatheringPolicy
  minPort := n.minPort
  maxPort := n.maxPort
  bundlePolicy := n.bundlePolicy
  iceConnectionReceivingTimeoutMs := n.iceConnectionReceivingTimeoutMs
  iceCheckIntervalStrongConnectivityMs := n.iceCheckIntervalStrongConnectivityMs
  tcpCandidatePolicy := n.tcpCandidatePolicy
  sctpSnap := n.sctpSnap

/-- What its pointers point at. -/
def memory (n : NativeConfig) : Memory where
  server i := n.servers[i]?
  url i j := n.urlPtrs[i]?.bind fun ptrs => ptrs[j]?.map some
  chars
    | .url i j => (n.urls[i]?.bind (·[j]?)).map CString.buffer
    | .username i => n.credentials[i]?.map fun c => c.1.buffer
    | .password i => n.credentials[i]?.map fun c => c.2.buffer

end NativeConfig

def RtcConfiguration.toNative (config : RtcConfiguration) : Except String NativeConfig :=
  NativeConfig.new config

namespace Glue

/-- What the glue sets of a libwebrtc configuration. -/
structure RTCConfiguration where
  servers : List IceServer := []
  type : IceTransportsType := .all
  continualGatheringPolicy : ContinualGatheringPolicy := .gatherOnce
  minPort : Int := 0
  maxPort : Int := 0
  bundlePolicy : BundlePolicy := .balanced
  iceConnectionReceivingTimeout : Int := -1
  iceCheckIntervalStrongConnectivity : Option Int := none
  tcpCandidatePolicy : TcpCandidatePolicy := .disabled
  enableSctpSnap : Bool := false
  deriving DecidableEq, Repr

variable (mem : Memory)

/-- `std::string(const char*)` -/
def readString (p : CharPtr) : Option Bytes :=
  (mem.chars p).map fun buffer => buffer.takeWhile (· ≠ 0)

/-- Copy a borrowed C string, mapping null to empty. -/
def strOrEmpty : Option CharPtr → Option Bytes
  | none => some []
  | some p => readString mem p

/-- One URL; the array and the URL may be null. -/
def readUrl (src : ReactorIceServer) (u : Nat) : Option (Option Bytes) :=
  match src.urls with
  | none => some none
  | some urls =>
    (mem.url urls u).bind fun
      | none => some none
      | some p => (readString mem p).map some

/-- One server; one without a URL is passed over. -/
def readServer (i : Nat) : Option (Option IceServer) := do
  let src ← mem.server i
  let urls ← (List.range src.urlsLen).mapM (readUrl mem src)
  let urls := urls.reduceOption
  if urls = [] then
    pure none
  else
    let username ← strOrEmpty mem src.username
    let password ← strOrEmpty mem src.password
    pure (some { urls, username, password })

/-- Apply the caller's configuration; a null one keeps the defaults. -/
def applyRtcConfig (input : Option ReactorRtcConfig) (cfg : RTCConfiguration) :
    Option RTCConfiguration :=
  match input with
  | none => some cfg
  | some input => do
    let servers ← (List.range input.serversLen).mapM (readServer mem)
    let ranged := 0 < input.minPort ∧ 0 < input.maxPort
    pure {
      servers := cfg.servers ++ servers.reduceOption
      type :=
        match input.iceTransportType with
        | 1 => .relay
        | 2 => .noHost
        | 3 => .none
        | _ => .all
      continualGatheringPolicy :=
        if input.continualGatheringPolicy = 1 then .gatherContinually else .gatherOnce
      minPort := if ranged then input.minPort else cfg.minPort
      maxPort := if ranged then input.maxPort else cfg.maxPort
      bundlePolicy :=
        match input.bundlePolicy with
        | 1 => .maxBundle
        | 2 => .maxCompat
        | _ => cfg.bundlePolicy
      iceConnectionReceivingTimeout :=
        if 0 < input.iceConnectionReceivingTimeoutMs then input.iceConnectionReceivingTimeoutMs
        else cfg.iceConnectionReceivingTimeout
      iceCheckIntervalStrongConnectivity :=
        if 0 < input.iceCheckIntervalStrongConnectivityMs then
          some input.iceCheckIntervalStrongConnectivityMs
        else cfg.iceCheckIntervalStrongConnectivity
      tcpCandidatePolicy :=
        match input.tcpCandidatePolicy with
        | 1 => .enabled
        | _ => cfg.tcpCandidatePolicy
      enableSctpSnap := decide (input.sctpSnap ≠ 0) }

end Glue

/-- The strings of a server. -/
def IceServer.strings (s : IceServer) : List Bytes := s.urls ++ [s.username, s.password]

/-- What is not accepted: a NUL byte, half a range, or an empty one. -/
def RtcConfiguration.Rejected (config : RtcConfiguration) : Prop :=
  (∃ s ∈ config.iceServers, ∃ t ∈ s.strings, 0 ∈ t) ∨
    config.minPort.isSome ≠ config.maxPort.isSome ∨
    ∃ lo hi, config.minPort = some lo ∧ config.maxPort = some hi ∧ hi < lo

/-- What an accepted configuration does to one of libwebrtc. -/
structure RtcConfiguration.Applied (config : RtcConfiguration) (cfg : Glue.RTCConfiguration) :
    Prop where
  rejected : (∃ e, config.toNative = .error e) ↔ config.Rejected
  /-- The servers that have a URL, each as it is, and the range. -/
  applied : ∀ native, config.toNative = .ok native →
    ∃ out, Glue.applyRtcConfig native.memory (some native.config) cfg = some out ∧
      out.servers = cfg.servers ++ config.iceServers.filter (fun s => decide (s.urls ≠ [])) ∧
      ∀ lo hi, config.minPort = some lo → config.maxPort = some hi →
        out.minPort = lo.toNat ∧ out.maxPort = hi.toNat

/-! ### What is owned

One lemma for each step of `new`: what it returns when it succeeds, and that it succeeds
unless a string is not fit for C.
-/

namespace NativeConfig

/-- What a server's strings were made from. -/
def ownedServer (owned : List CString × CString × CString) : IceServer where
  urls := owned.1.map CString.bytes
  username := owned.2.1.bytes
  password := owned.2.2.bytes

theorem cstring_bytes (field : String) (s : Bytes) (c : CString)
    (h : cstring field s = .ok c) : c.bytes = s := by
  unfold cstring CString.new at h
  split at h
  · rename_i c' hc'
    obtain rfl := Except.ok.inj h
    split at hc'
    · obtain rfl := Option.some.inj hc'
      rfl
    · cases hc'
  · cases h

theorem exists_cstring (field : String) {s : Bytes} :
    (∃ c, cstring field s = .ok c) ↔ 0 ∉ s := by
  unfold cstring CString.new
  by_cases h : 0 ∉ s
  · rw [dif_pos h]
    exact iff_of_true ⟨_, rfl⟩ h
  · rw [dif_neg h]
    exact iff_of_false (fun ⟨_, hc⟩ => by cases hc) h

theorem ownServer_eq_ok {server : IceServer} {owned : List CString × CString × CString} :
    ownServer server = .ok owned ↔ server.urls.mapM (cstring "URL") = .ok owned.1 ∧
      cstring "username" server.username = .ok owned.2.1 ∧
      cstring "password" server.password = .ok owned.2.2 := by
  simp only [ownServer, Traverse.bind_eq_ok]
  constructor
  · rintro ⟨entry, hurls, username, husername, password, hpassword, hall⟩
    obtain rfl := Except.ok.inj hall
    exact ⟨hurls, husername, hpassword⟩
  · rintro ⟨hurls, husername, hpassword⟩
    exact ⟨_, hurls, _, husername, _, hpassword, rfl⟩

theorem ownedServer_of_ok (server : IceServer) (owned : List CString × CString × CString)
    (h : ownServer server = .ok owned) : ownedServer owned = server := by
  obtain ⟨hurls, husername, hpassword⟩ := ownServer_eq_ok.mp h
  unfold ownedServer
  rw [Traverse.map_of_mapM_ok (cstring_bytes "URL") hurls, cstring_bytes _ _ _ husername,
    cstring_bytes _ _ _ hpassword]

theorem exists_ownServer {server : IceServer} :
    (∃ owned, ownServer server = .ok owned) ↔ ∀ t ∈ server.strings, 0 ∉ t := by
  have hurls : (∃ entry, server.urls.mapM (cstring "URL") = .ok entry) ↔
      ∀ t ∈ server.urls, 0 ∉ t := by
    rw [Traverse.exists_mapM_ok]
    exact forall₂_congr fun t _ => exists_cstring "URL"
  have hstrings : (∀ t ∈ server.strings, 0 ∉ t) ↔ (∀ t ∈ server.urls, 0 ∉ t) ∧
      0 ∉ server.username ∧ 0 ∉ server.password := by
    unfold IceServer.strings
    rw [List.forall_mem_append, List.forall_mem_cons, List.forall_mem_singleton]
  rw [hstrings, ← hurls, ← exists_cstring "username", ← exists_cstring "password"]
  constructor
  · rintro ⟨owned, h⟩
    obtain ⟨hentry, husername, hpassword⟩ := ownServer_eq_ok.mp h
    exact ⟨⟨_, hentry⟩, ⟨_, husername⟩, _, hpassword⟩
  · rintro ⟨⟨entry, hentry⟩, ⟨username, husername⟩, password, hpassword⟩
    exact ⟨(entry, username, password), ownServer_eq_ok.mpr ⟨hentry, husername, hpassword⟩⟩

theorem exists_portRange {minPort maxPort : Option UInt16} :
    (∃ range, portRange minPort maxPort = .ok range) ↔ minPort.isSome = maxPort.isSome ∧
      ∀ lo hi, minPort = some lo → maxPort = some hi → lo ≤ hi := by
  cases minPort with
  | none =>
      cases maxPort with
      | none => exact iff_of_true ⟨_, rfl⟩ ⟨rfl, fun _ _ h => by cases h⟩
      | some hi => exact iff_of_false (fun ⟨_, h⟩ => by cases h) fun h => by cases h.1
  | some lo =>
      cases maxPort with
      | none => exact iff_of_false (fun ⟨_, h⟩ => by cases h) fun h => by cases h.1
      | some hi =>
          by_cases hle : lo ≤ hi
          · refine iff_of_true ⟨_, if_pos hle⟩ ⟨rfl, fun lo' hi' hlo hhi => ?_⟩
            obtain rfl := Option.some.inj hlo
            obtain rfl := Option.some.inj hhi
            exact hle
          · refine iff_of_false (fun ⟨range, h⟩ => ?_) fun h => hle (h.2 lo hi rfl rfl)
            rw [portRange, if_neg hle] at h
            cases h

theorem new_eq_ok {config : RtcConfiguration} {n : NativeConfig} :
    new config = .ok n ↔ ∃ owned range, config.iceServers.mapM ownServer = .ok owned ∧
      portRange config.minPort config.maxPort = .ok range ∧
      n = marshal config owned range.1 range.2 := by
  simp only [new, Traverse.bind_eq_ok]
  constructor
  · rintro ⟨owned, hservers, range, hrange, hn⟩
    exact ⟨owned, range, hservers, hrange, (Except.ok.inj hn).symm⟩
  · rintro ⟨owned, range, hservers, hrange, rfl⟩
    exact ⟨owned, hservers, range, hrange, rfl⟩

theorem exists_new (config : RtcConfiguration) :
    (∃ n, new config = .ok n) ↔ ¬ config.Rejected := by
  have hsplit : (∃ n, new config = .ok n) ↔
      (∃ owned, config.iceServers.mapM ownServer = .ok owned) ∧
        ∃ range, portRange config.minPort config.maxPort = .ok range := by
    constructor
    · rintro ⟨n, h⟩
      obtain ⟨owned, range, hservers, hrange, -⟩ := new_eq_ok.mp h
      exact ⟨⟨owned, hservers⟩, range, hrange⟩
    · rintro ⟨⟨owned, hservers⟩, range, hrange⟩
      exact ⟨_, new_eq_ok.mpr ⟨owned, range, hservers, hrange, rfl⟩⟩
  rw [hsplit, Traverse.exists_mapM_ok, exists_portRange]
  simp only [exists_ownServer, RtcConfiguration.Rejected, not_or, not_exists, not_and, ne_eq,
    not_not, UInt16.not_lt]

end NativeConfig

/-! ### What is read back

The pointers of the `k`th server lead to what was made of the `k`th server, so every read
succeeds and gives the bytes before the NUL, which are all of them.
-/

namespace Glue

open NativeConfig

variable {config : RtcConfiguration} {owned : List (List CString × CString × CString)}
  {minPort maxPort : Int} {i : Nat} {o : List CString × CString × CString}

variable {mem : Memory}

theorem readString_buffer {p : CharPtr} {c : CString}
    (h : mem.chars p = some c.buffer) : readString mem p = some c.bytes := by
  have hkeep : ∀ b ∈ c.bytes, decide (b ≠ 0) = true := by
    intro b hb
    refine decide_eq_true ?_
    rintro rfl
    exact c.nul hb
  rw [readString, h, Option.map_some, CString.buffer, List.takeWhile_append_of_pos hkeep,
    List.takeWhile_cons_of_neg (by decide), List.append_nil]

/-- An array of pointers to these strings. -/
theorem readUrls {src : ReactorIceServer} {entry : List CString} (hurls : src.urls = some i)
    (hlen : src.urlsLen = entry.length)
    (hentry : ∀ u c, entry[u]? = some c →
      ∃ p, mem.url i u = some (some p) ∧ mem.chars p = some c.buffer) :
    (List.range src.urlsLen).mapM (readUrl mem src) =
      some (entry.map fun c => some c.bytes) := by
  have hread : ∀ u ∈ List.range src.urlsLen,
      readUrl mem src u = pure ((fun u => entry[u]?.map CString.bytes) u) := by
    intro u hu
    have hc := List.getElem?_eq_getElem (hlen ▸ List.mem_range.mp hu)
    obtain ⟨p, hurl, hchars⟩ := hentry u _ hc
    rw [readUrl, hurls]
    dsimp only
    rw [hurl, hc, Option.bind_some]
    dsimp only
    rw [readString_buffer hchars]
    rfl
  rw [Traverse.mapM_eq_pure hread, hlen, Traverse.map_range_getElem?]
  rfl

theorem marshal_urlPtrs (h : owned[i]? = some o) :
    (marshal config owned minPort maxPort).urlPtrs[i]? =
      some (o.1.mapIdx fun u _ => CharPtr.url i u) := by
  simp [marshal, h]

theorem marshal_server (h : owned[i]? = some o) {n : NativeConfig}
    (hn : n = marshal config owned minPort maxPort) :
    ∃ src, n.memory.server i = some src ∧ src.urls = some i ∧ src.urlsLen = o.1.length ∧
      src.username = some (.username i) ∧ src.password = some (.password i) := by
  subst hn
  have hzip : ((marshal config owned minPort maxPort).urlPtrs.zip
      (marshal config owned minPort maxPort).credentials)[i]? =
        some (o.1.mapIdx fun u _ => CharPtr.url i u, o.2) := by
    refine List.getElem?_zip_eq_some.mpr ⟨marshal_urlPtrs h, ?_⟩
    simp [marshal, h]
  refine ⟨{ urls := some i, urlsLen := (o.1.mapIdx fun u _ => CharPtr.url i u).length,
            username := some (.username i), password := some (.password i) },
    ?_, rfl, List.length_mapIdx, rfl, rfl⟩
  show (List.mapIdx _ ((marshal config owned minPort maxPort).urlPtrs.zip
    (marshal config owned minPort maxPort).credentials))[i]? = _
  rw [List.getElem?_mapIdx, hzip]
  rfl

/-- The strings of a server are where its pointers say. -/
theorem marshal_chars (h : owned[i]? = some o) {n : NativeConfig}
    (hn : n = marshal config owned minPort maxPort) :
    (∀ u c, o.1[u]? = some c →
      ∃ p, n.memory.url i u = some (some p) ∧ n.memory.chars p = some c.buffer) ∧
    n.memory.chars (.username i) = some o.2.1.buffer ∧
    n.memory.chars (.password i) = some o.2.2.buffer := by
  subst hn
  refine ⟨fun u c hc => ⟨.url i u, ?_, ?_⟩, ?_, ?_⟩
  · show (marshal config owned minPort maxPort).urlPtrs[i]?.bind _ = _
    rw [marshal_urlPtrs h, Option.bind_some, List.getElem?_mapIdx, hc]
    rfl
  · simp [memory, marshal, h, hc]
  · simp [memory, marshal, h]
  · simp [memory, marshal, h]

theorem strOrEmpty_buffer {c : CString} {p : CharPtr} {q : Option CharPtr} (hq : q = some p)
    (h : mem.chars p = some c.buffer) : strOrEmpty mem q = some c.bytes := by
  rw [hq]
  exact readString_buffer h

/-- A server is read back as it was owned. -/
theorem readServer_marshal (h : owned[i]? = some o) :
    readServer (marshal config owned minPort maxPort).memory i =
      some (if (ownedServer o).urls = [] then none else some (ownedServer o)) := by
  generalize hn : marshal config owned minPort maxPort = n
  obtain ⟨src, hserver, hurls, hlen, husername, hpassword⟩ := marshal_server h hn.symm
  obtain ⟨hchars, husername', hpassword'⟩ := marshal_chars h hn.symm
  have hlist : (o.1.map fun c => some c.bytes).reduceOption = (ownedServer o).urls :=
    Traverse.reduceOption_map_some o.1 CString.bytes
  rw [readServer, hserver, Option.bind_eq_bind, Option.bind_some, readUrls hurls hlen hchars,
    Option.bind_eq_bind, Option.bind_some, hlist]
  dsimp only
  by_cases hempty : (ownedServer o).urls = []
  · rw [if_pos hempty, if_pos hempty]
    rfl
  · rw [if_neg hempty, if_neg hempty, strOrEmpty_buffer husername husername',
      strOrEmpty_buffer hpassword hpassword']
    rfl

theorem gathering_wire (policy : ContinualGatheringPolicy) :
    (if policy.toWire = 1 then ContinualGatheringPolicy.gatherContinually else .gatherOnce) =
      policy := by
  cases policy <;> rfl

theorem snap_wire (snap : Bool) : decide ((if snap then (1 : Int) else 0) ≠ 0) = snap := by
  cases snap <;> rfl

/-- A number that is absent goes as -1, and one that is not positive is not set. -/
theorem timeout_wire (ms : Option Int) (default : Int) :
    (if 0 < ms.getD (-1) then ms.getD (-1) else default) = (ms.filter (0 < ·)).getD default := by
  cases ms with
  | none => rfl
  | some ms => by_cases h : 0 < ms <;> simp [Option.filter, h]

theorem interval_wire (ms default : Option Int) :
    (if 0 < ms.getD (-1) then some (ms.getD (-1)) else default) =
      (ms.filter (0 < ·)).or default := by
  cases ms with
  | none => rfl
  | some ms => by_cases h : 0 < ms <;> simp [Option.filter, h]

/-- The whole of what an accepted configuration does to one of libwebrtc. -/
theorem applyRtcConfig_marshal (config : RtcConfiguration)
    (owned : List (List CString × CString × CString)) (minPort maxPort : Int)
    (cfg : RTCConfiguration) :
    applyRtcConfig (marshal config owned minPort maxPort).memory
      (some (marshal config owned minPort maxPort).config) cfg =
    some {
      servers := cfg.servers ++
        (owned.map ownedServer).filter fun s => decide (s.urls ≠ [])
      type := config.iceTransportType
      continualGatheringPolicy := config.continualGatheringPolicy
      minPort := if 0 < minPort ∧ 0 < maxPort then minPort else cfg.minPort
      maxPort := if 0 < minPort ∧ 0 < maxPort then maxPort else cfg.maxPort
      bundlePolicy :=
        if config.bundlePolicy = .balanced then cfg.bundlePolicy else config.bundlePolicy
      iceConnectionReceivingTimeout :=
        (config.iceConnectionReceivingTimeoutMs.filter (0 < ·)).getD
          cfg.iceConnectionReceivingTimeout
      iceCheckIntervalStrongConnectivity :=
        (config.iceCheckIntervalStrongConnectivityMs.filter (0 < ·)).or
          cfg.iceCheckIntervalStrongConnectivity
      tcpCandidatePolicy :=
        if config.tcpCandidatePolicy = .disabled then cfg.tcpCandidatePolicy
        else config.tcpCandidatePolicy
      enableSctpSnap := config.sctpSnap } := by
  have hread : ∀ i ∈ List.range owned.length,
      readServer (marshal config owned minPort maxPort).memory i =
        pure ((fun i => (owned[i]?).bind fun o =>
          if (ownedServer o).urls = [] then none else some (ownedServer o)) i) := by
    intro i hi
    have ho := List.getElem?_eq_getElem (List.mem_range.mp hi)
    rw [readServer_marshal ho]
    dsimp only
    rw [ho]
    rfl
  have hlength : (marshal config owned minPort maxPort).config.serversLen = owned.length := by
    simp [NativeConfig.config, marshal]
  have hservers : (owned.map fun o =>
      if (ownedServer o).urls = [] then none else some (ownedServer o)).reduceOption =
        (owned.map ownedServer).filter fun s => decide (s.urls ≠ []) := by
    rw [← Traverse.reduceOption_map_ite, List.map_map]
    rfl
  have hmap : (List.range owned.length).mapM
      (readServer (marshal config owned minPort maxPort).memory) = some (owned.map fun o =>
        if (ownedServer o).urls = [] then none else some (ownedServer o)) := by
    rw [Traverse.mapM_eq_pure hread]
    exact congrArg some (Traverse.map_range_getElem? owned fun o => o.bind fun o =>
      if (ownedServer o).urls = [] then none else some (ownedServer o))
  rw [applyRtcConfig]
  dsimp only
  rw [hlength, hmap, Option.bind_eq_bind, Option.bind_some, hservers]
  dsimp only [marshal, NativeConfig.config]
  refine congrArg some ?_
  congr 1
  · cases config.iceTransportType <;> rfl
  · exact gathering_wire _
  · cases config.bundlePolicy <;> rfl
  · exact timeout_wire _ _
  · exact interval_wire _ _
  · cases config.tcpCandidatePolicy <;> rfl
  · exact snap_wire _

end Glue

/-! ### What becomes of the range

A port that is absent and a port of zero are the same number on the way.
-/

open NativeConfig Glue

theorem toNative_rejected (config : RtcConfiguration) :
    (∃ e, config.toNative = .error e) ↔ config.Rejected := by
  have hiff := exists_new config
  unfold RtcConfiguration.toNative
  cases hnew : NativeConfig.new config with
  | error e => exact iff_of_true ⟨e, rfl⟩ (by
      by_contra hnot
      obtain ⟨n, hn⟩ := hiff.mpr hnot
      cases hnew.symm.trans hn)
  | ok n => exact iff_of_false (fun ⟨_, he⟩ => by cases he) (hiff.mp ⟨n, hnew⟩)

theorem portRange_some {lo hi : UInt16} {range : Int × Int}
    (h : portRange (some lo) (some hi) = .ok range) :
    lo ≤ hi ∧ range = (↑lo.toNat, ↑hi.toNat) := by
  rw [portRange] at h
  split at h
  · rename_i hle
    exact ⟨hle, (Except.ok.inj h).symm⟩
  · cases h

/-- A range is set unless it begins at zero. -/
theorem ranged_iff {lo hi : UInt16} (hle : lo ≤ hi) :
    (0 < (lo.toNat : Int) ∧ 0 < (hi.toNat : Int)) ↔ lo ≠ 0 := by
  have hle' : lo.toNat ≤ hi.toNat := hle
  have hzero : lo = 0 ↔ lo.toNat = 0 := UInt16.toNat_inj.symm
  rw [Ne, hzero]
  omega

/-- What is set is the range that was given, or what was there is it. -/
theorem range_applied_iff {config : RtcConfiguration} {cfg out : Glue.RTCConfiguration}
    {owned : List (List CString × CString × CString)} {range : Int × Int} {lo hi : UInt16}
    (hports : portRange config.minPort config.maxPort = .ok range)
    (hlo : config.minPort = some lo) (hhi : config.maxPort = some hi)
    (hout : applyRtcConfig (marshal config owned range.1 range.2).memory
      (some (marshal config owned range.1 range.2).config) cfg = some out) :
    (out.minPort = lo.toNat ∧ out.maxPort = hi.toNat) ↔
      (lo ≠ 0 ∨ cfg.minPort = 0 ∧ cfg.maxPort = hi.toNat) := by
  rw [hlo, hhi] at hports
  obtain ⟨hle, rfl⟩ := portRange_some hports
  rw [applyRtcConfig_marshal] at hout
  obtain rfl := Option.some.inj hout
  simp only [ranged_iff hle]
  by_cases hzero : lo = 0
  · rw [if_neg (not_not.mpr hzero), if_neg (not_not.mpr hzero), hzero]
    exact (or_iff_right (fun h => h rfl)).symm
  · rw [if_pos hzero, if_pos hzero]
    exact iff_of_true ⟨rfl, rfl⟩ (.inl hzero)

/--
**When an accepted configuration is applied in full.**  A configuration is refused for the
three reasons alone, its servers always get there, and its range does exactly if it does not
begin at zero, or is the one that is there.
-/
theorem applied_iff (config : RtcConfiguration) (cfg : Glue.RTCConfiguration) :
    config.Applied cfg ↔ (¬ config.Rejected → ∀ lo hi, config.minPort = some lo →
      config.maxPort = some hi → lo ≠ 0 ∨ cfg.minPort = 0 ∧ cfg.maxPort = hi.toNat) := by
  constructor
  · intro happlied haccepted lo hi hlo hhi
    obtain ⟨n, hn⟩ := (exists_new config).mpr haccepted
    obtain ⟨out, hout, -, hrange⟩ := happlied.applied n hn
    obtain ⟨owned, range, -, hports, rfl⟩ := new_eq_ok.mp hn
    exact (range_applied_iff hports hlo hhi hout).mp (hrange lo hi hlo hhi)
  · intro hcond
    refine ⟨toNative_rejected config, fun n hn => ?_⟩
    have haccepted := (exists_new config).mp ⟨n, hn⟩
    obtain ⟨owned, range, hservers, hports, rfl⟩ := new_eq_ok.mp hn
    have hout := applyRtcConfig_marshal config owned range.1 range.2 cfg
    refine ⟨_, hout, ?_, fun lo hi hlo hhi => ?_⟩
    · show cfg.servers ++ (owned.map ownedServer).filter _ = _
      rw [Traverse.map_of_mapM_ok ownedServer_of_ok hservers]
    · exact (range_applied_iff hports hlo hhi hout).mpr (hcond haccepted lo hi hlo hhi)

/-- A range from zero on is accepted, and nothing is set. -/
theorem range_from_zero_dropped :
    ¬ RtcConfiguration.Applied { minPort := some 0, maxPort := some 100 } {} := by
  intro h
  obtain ⟨out, hout, -, hrange⟩ := h.applied _ rfl
  obtain rfl := Option.some.inj hout
  have hmax := (hrange 0 100 rfl rfl).2
  cases hmax

end ReactorWebrtc
