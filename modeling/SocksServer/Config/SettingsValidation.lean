import SocksServer.Auth.Credentials
import SocksServer.Config.FromSettings
import SocksServer.Infra.Validation
import SocksServer.Policy.IpLiteral

/-!
# Which settings are valid, and where they land

Each key of the settings has a type of values and a condition on them that no other key takes
part in. `fromSettings` is a validator of these keys (`Infra/Validation.lean`): one lemma for
each check, and `Checks.bind` for each `?`.
-/

namespace SocksServer

open Infra Text Validation

/-! ## Keys -/

inductive SettingsKey where
  | listenAddress
  | users
  | maxConnections
  | handshakeTimeoutSec
  | connectTimeoutSec
  | idleTimeoutSec
  | shutdownGraceSec
  | statsIntervalSec
  | clientWhitelist
  | blockedPorts
  | allowInternal
  | internalWhitelist
  | banMaxFailures
  | banWindowSec
  | banDurationSec
  deriving DecidableEq, Repr

namespace SettingsKey

/-- The key as it stands in the file. -/
def name : SettingsKey → String
  | listenAddress => "listen_address"
  | users => "users"
  | maxConnections => "max_connections"
  | handshakeTimeoutSec => "handshake_timeout_sec"
  | connectTimeoutSec => "connect_timeout_sec"
  | idleTimeoutSec => "idle_timeout_sec"
  | shutdownGraceSec => "shutdown_grace_sec"
  | statsIntervalSec => "stats_interval_sec"
  | clientWhitelist => "client_whitelist"
  | blockedPorts => "blocked_ports"
  | allowInternal => "allow_internal"
  | internalWhitelist => "internal_whitelist"
  | banMaxFailures => "ban_max_failures"
  | banWindowSec => "ban_window_sec"
  | banDurationSec => "ban_duration_sec"

/-- The type of a key's values. -/
@[reducible] def Value : SettingsKey → Type
  | listenAddress => String
  | users => List UserSettingsModel
  | clientWhitelist | internalWhitelist => List String
  | blockedPorts => List UInt16
  | allowInternal => Bool
  | maxConnections | banMaxFailures => UInt32
  | handshakeTimeoutSec | connectTimeoutSec | idleTimeoutSec | shutdownGraceSec
  | statsIntervalSec | banWindowSec | banDurationSec => UInt64

/-- One second to one year. -/
def ValidSeconds (n : UInt64) : Prop := 1 ≤ n.toNat ∧ n.toNat ≤ 31536000

instance (n : UInt64) : Decidable (ValidSeconds n) := inferInstanceAs (Decidable (_ ∧ _))

/-- What a value of the key has to be. -/
def Valid (std : IpText) : (key : SettingsKey) → key.Value → Prop
  | .listenAddress, text => ∃ addr, SocketAddr.fromStr std text.toList = some addr
  | .users, list => ∃ store,
      UserStore.new (list.map fun user => ⟨user.username, user.password⟩) = .ok store
  | .maxConnections, n => 1 ≤ n.toNat ∧ n.toNat ≤ 1000000
  | .handshakeTimeoutSec, n => ValidSeconds n
  | .connectTimeoutSec, n => ValidSeconds n
  | .idleTimeoutSec, n => ValidSeconds n
  | .shutdownGraceSec, n => ValidSeconds n
  | .statsIntervalSec, n => ValidSeconds n
  | .clientWhitelist, texts => ∀ text ∈ texts, ∃ cidr, Cidr.fromStr std text.toList = .ok cidr
  | .blockedPorts, ports => 0 ∉ ports
  | .allowInternal, _ => True
  | .internalWhitelist, texts => ∀ text ∈ texts, ∃ entry,
      InternalWhitelistEntry.fromStr std text.toList = .ok entry
  | .banMaxFailures, _ => True
  | .banWindowSec, n => ValidSeconds n
  | .banDurationSec, n => ValidSeconds n

/-- The default the README gives; `users` has none. -/
def documentedDefault : (key : SettingsKey) → Option key.Value
  | listenAddress => some "0.0.0.0:1080"
  | users => none
  | maxConnections => some 4096
  | handshakeTimeoutSec => some 10
  | connectTimeoutSec => some 15
  | idleTimeoutSec => some 300
  | shutdownGraceSec => some 10
  | statsIntervalSec => some 60
  | clientWhitelist => some []
  | blockedPorts => some [25]
  | allowInternal => some false
  | internalWhitelist => some []
  | banMaxFailures => some 5
  | banWindowSec => some 600
  | banDurationSec => some 3600

/-- The keys that have a check, in the order of the checks. -/
def checkingOrder : List SettingsKey :=
  [listenAddress, users, maxConnections, handshakeTimeoutSec, connectTimeoutSec, idleTimeoutSec,
    shutdownGraceSec, statsIntervalSec, clientWhitelist, blockedPorts, internalWhitelist,
    banWindowSec, banDurationSec]

/-- No two settings have the same name. -/
theorem name_injective {key key' : SettingsKey} (h : key.name = key'.name) : key = key' := by
  cases key <;> cases key' <;> first | rfl | exact absurd h (by decide)

end SettingsKey

namespace SettingsModel

/-- The value of a key, `none` when it is missing. -/
def get (settings : SettingsModel) : (key : SettingsKey) → Option key.Value
  | .listenAddress => settings.listenAddress
  | .users => some settings.users
  | .maxConnections => settings.maxConnections
  | .handshakeTimeoutSec => settings.handshakeTimeoutSec
  | .connectTimeoutSec => settings.connectTimeoutSec
  | .idleTimeoutSec => settings.idleTimeoutSec
  | .shutdownGraceSec => settings.shutdownGraceSec
  | .statsIntervalSec => settings.statsIntervalSec
  | .clientWhitelist => settings.clientWhitelist
  | .blockedPorts => settings.blockedPorts
  | .allowInternal => settings.allowInternal
  | .internalWhitelist => settings.internalWhitelist
  | .banMaxFailures => settings.banMaxFailures
  | .banWindowSec => settings.banWindowSec
  | .banDurationSec => settings.banDurationSec

/-- The settings with the key written into the file. -/
def set (settings : SettingsModel) : (key : SettingsKey) → key.Value → SettingsModel
  | .listenAddress, value => { settings with listenAddress := some value }
  | .users, value => { settings with users := value }
  | .maxConnections, value => { settings with maxConnections := some value }
  | .handshakeTimeoutSec, value => { settings with handshakeTimeoutSec := some value }
  | .connectTimeoutSec, value => { settings with connectTimeoutSec := some value }
  | .idleTimeoutSec, value => { settings with idleTimeoutSec := some value }
  | .shutdownGraceSec, value => { settings with shutdownGraceSec := some value }
  | .statsIntervalSec, value => { settings with statsIntervalSec := some value }
  | .clientWhitelist, value => { settings with clientWhitelist := some value }
  | .blockedPorts, value => { settings with blockedPorts := some value }
  | .allowInternal, value => { settings with allowInternal := some value }
  | .internalWhitelist, value => { settings with internalWhitelist := some value }
  | .banMaxFailures, value => { settings with banMaxFailures := some value }
  | .banWindowSec, value => { settings with banWindowSec := some value }
  | .banDurationSec, value => { settings with banDurationSec := some value }

/-- A missing key is valid. -/
def KeyValid (std : IpText) (settings : SettingsModel) (key : SettingsKey) : Prop :=
  ∀ value ∈ settings.get key, key.Valid std value

section KeyValid

variable {std : IpText} {settings : SettingsModel} {key : SettingsKey}

theorem keyValid_of_missing (h : settings.get key = none) : settings.KeyValid std key := by
  intro value hvalue
  rw [h] at hvalue
  cases hvalue

theorem keyValid_of_get {value : key.Value} (h : settings.get key = some value)
    (hvalid : key.Valid std value) : settings.KeyValid std key := by
  intro value' hvalue
  rw [h] at hvalue
  rw [← Option.some.inj hvalue]
  exact hvalid

end KeyValid

/-- A missing optional key, with its default written explicitly. -/
def writeDefault (settings : SettingsModel) (key : SettingsKey) : SettingsModel :=
  match settings.get key, key.documentedDefault with
  | none, some value => settings.set key value
  | _, _ => settings

end SettingsModel

/-- The error is about this key. -/
def ConfigError.Names (error : ConfigError) (key : SettingsKey) : Prop :=
  ∃ reason, error = .invalid key.name reason

/-- An error names one setting. -/
theorem ConfigError.Names.unique {error : ConfigError} {key key' : SettingsKey}
    (h : error.Names key) (h' : error.Names key') : key = key' := by
  obtain ⟨reason, rfl⟩ := h
  obtain ⟨reason', heq⟩ := h'
  exact SettingsKey.name_injective (ConfigError.invalid.inj heq).1

/-! ## Where the values land -/

/-- Every setting, or its default, in its own field. -/
structure Lands (std : IpText) (settings : SettingsModel) (config : ServerConfig) : Prop where
  listenAddress :
    SocketAddr.fromStr std (settings.listenAddress.getD "0.0.0.0:1080").toList =
      some config.listenAddress
  users :
    List.Forall₂ (fun user => StoredUser.Stores ⟨user.username, user.password⟩)
      settings.users config.users.users
  maxConnections : config.maxConnections = settings.maxConnections.getD 4096
  handshake :
    config.timeouts.handshake = durationFromSecs (settings.handshakeTimeoutSec.getD 10).toNat
  connect : config.timeouts.connect = durationFromSecs (settings.connectTimeoutSec.getD 15).toNat
  idle : config.timeouts.idle = durationFromSecs (settings.idleTimeoutSec.getD 300).toNat
  shutdownGrace :
    config.timeouts.shutdownGrace = durationFromSecs (settings.shutdownGraceSec.getD 10).toNat
  statsInterval : config.statsInterval = durationFromSecs (settings.statsIntervalSec.getD 60).toNat
  clientWhitelist :
    List.Forall₂ (fun text cidr => Cidr.fromStr std text.toList = .ok cidr)
      (settings.clientWhitelist.getD []) config.clientAcl.networks
  blockedPorts : config.destinationPolicy.blockedPorts = settings.blockedPorts.getD [25]
  allowInternal : config.destinationPolicy.allowInternal = settings.allowInternal.getD false
  internalWhitelist :
    List.Forall₂ (fun text entry => InternalWhitelistEntry.fromStr std text.toList = .ok entry)
      (settings.internalWhitelist.getD []) config.destinationPolicy.internalWhitelist
  banMaxFailures : config.ban.maxFailures = settings.banMaxFailures.getD 5
  banWindow : config.ban.window = durationFromSecs (settings.banWindowSec.getD 600).toNat
  banDuration : config.ban.duration = durationFromSecs (settings.banDurationSec.getD 3600).toNat
  banMaxTracked : config.ban.maxTracked = 100000

/-! ## The checks -/

section Checks

variable {std : IpText} {settings : SettingsModel}

/-- `seconds` checks the setting it names. -/
theorem seconds_checks (key : SettingsKey) {value : Option UInt64} {default : UInt64}
    (hdefault : SettingsKey.ValidSeconds default)
    (hkey : settings.KeyValid std key ↔ ∀ n ∈ value, SettingsKey.ValidSeconds n) :
    Checks (settings.KeyValid std) ConfigError.Names [key] (seconds key.name value default)
      (· = durationFromSecs (value.getD default).toNat) := by
  refine .guard ?_ rfl ⟨_, rfl⟩
  rw [hkey, forall_mem_iff_getD default hdefault]
  generalize value.getD default = n
  have hmax : maxDurationSec.toNat = 31536000 := rfl
  unfold SettingsKey.ValidSeconds
  rw [not_or, gt_iff_lt, UInt64.lt_iff_toNat_lt, hmax, ← UInt64.toNat_inj, UInt64.toNat_zero]
  omega

/-- `parse_list` checks every element of the setting it names. -/
theorem parseList_checks {α : Type} {fromStr : Str → Except PolicyParseError α} (key : SettingsKey)
    {values : Option (List String)}
    (hkey : settings.KeyValid std key ↔
      ∀ texts ∈ values, ∀ text ∈ texts, ∃ a, fromStr text.toList = .ok a) :
    Checks (settings.KeyValid std) ConfigError.Names [key] (parseList fromStr key.name values)
      (List.Forall₂ (fun text a => fromStr text.toList = .ok a) (values.getD [])) := by
  refine .one ?_ ?_ ?_
  · rw [hkey, forall_mem_iff_getD [] (by simp), parseList, exists_mapM_eq_ok_iff]
    simp only [mapError_eq_ok_iff]
  · intro as has
    simpa only [mapError_eq_ok_iff] using mapM_eq_ok_iff.mp has
  · intro e he
    obtain ⟨text, -, htext⟩ := of_mapM_eq_error he
    obtain ⟨error, -, rfl⟩ := of_mapError_eq_error htext
    exact ⟨_, rfl⟩

/-- The default address is valid where `std` reads its IP. -/
theorem fromStr_defaultListenAddress
    (hstd : std.fromStr "0.0.0.0".toList = some (.v4 .unspecified)) :
    SocketAddr.fromStr std defaultListenAddress.toList = some (.v4 .unspecified 1080) := by
  have hbracket : stripPrefix '[' defaultListenAddress.toList = none := by decide
  have hsplit : splitOnce ':' defaultListenAddress.toList =
      some ("0.0.0.0".toList, "1080".toList) := by decide
  have hport : readNumber 65535 "1080".toList = some 1080 := by decide
  rw [SocketAddr.fromStr, hbracket, hsplit]
  simp only [bind, Option.bind, hport, hstd]
  rfl

/-- `listen_address` is parsed, or its default. -/
theorem readListenAddress_checks
    (hstd : std.fromStr "0.0.0.0".toList = some (.v4 .unspecified)) :
    Checks (settings.KeyValid std) ConfigError.Names [.listenAddress]
      (ServerConfig.readListenAddress std settings.listenAddress)
      (fun addr => SocketAddr.fromStr std
        (settings.listenAddress.getD defaultListenAddress).toList = some addr) := by
  have hkey : settings.KeyValid std .listenAddress ↔ ∃ addr, SocketAddr.fromStr std
      (settings.listenAddress.getD defaultListenAddress).toList = some addr :=
    forall_mem_iff_getD defaultListenAddress ⟨_, fromStr_defaultListenAddress hstd⟩
  unfold ServerConfig.readListenAddress
  cases hparse : SocketAddr.fromStr std
      (settings.listenAddress.getD defaultListenAddress).toList with
  | none =>
    rw [hparse] at hkey
    refine .one ?_ ?_ ?_
    · rw [hkey]
      simp
    · intro addr haddr
      cases haddr
    · intro e he
      exact ⟨_, (Except.error.inj he).symm⟩
  | some addr =>
    rw [hparse] at hkey
    refine .one ?_ ?_ ?_
    · rw [hkey]
      simp
    · intro addr' haddr
      rw [Except.ok.inj haddr]
    · intro e he
      cases he

/-- `users` is checked as a whole. -/
theorem readUsers_checks :
    Checks (settings.KeyValid std) ConfigError.Names [.users]
      (ServerConfig.readUsers settings.users)
      (fun store => List.Forall₂ (fun user => StoredUser.Stores ⟨user.username, user.password⟩)
        settings.users store.users) := by
  have hget : settings.get .users = some settings.users := rfl
  unfold ServerConfig.readUsers
  refine .one ?_ ?_ ?_
  · simp only [mapError_eq_ok_iff]
    constructor
    · intro hnew
      exact SettingsModel.keyValid_of_get hget hnew
    · intro hkey
      exact hkey _ hget
  · intro store hstore
    have hstores := (UserStore.stores_of_new (mapError_eq_ok_iff.mp hstore)).2.2
    exact List.forall₂_map_left_iff.mp hstores
  · intro e he
    obtain ⟨error, -, rfl⟩ := of_mapError_eq_error he
    exact ⟨_, rfl⟩

/-- `max_connections` is positive. -/
theorem readMaxConnections_checks :
    Checks (settings.KeyValid std) ConfigError.Names [.maxConnections]
      (ServerConfig.readMaxConnections settings.maxConnections)
      (· = settings.maxConnections.getD defaultMaxConnections) := by
  have hkey : settings.KeyValid std .maxConnections ↔
      SettingsKey.Valid std .maxConnections
        (settings.maxConnections.getD defaultMaxConnections) :=
    forall_mem_iff_getD defaultMaxConnections ⟨by decide, by decide⟩
  refine .guard ?_ rfl ⟨_, rfl⟩
  rw [hkey, not_not]
  rfl

/-- `blocked_ports` does not contain port 0. -/
theorem readBlockedPorts_checks :
    Checks (settings.KeyValid std) ConfigError.Names [.blockedPorts]
      (ServerConfig.readBlockedPorts settings.blockedPorts)
      (· = settings.blockedPorts.getD defaultBlockedPorts) := by
  have hkey : settings.KeyValid std .blockedPorts ↔
      0 ∉ settings.blockedPorts.getD defaultBlockedPorts :=
    forall_mem_iff_getD defaultBlockedPorts (show 0 ∉ defaultBlockedPorts by decide)
  refine .guard ?_ rfl ⟨_, rfl⟩
  rw [hkey, List.contains_iff_mem]

/-- **`from_settings`** checks the settings in the order of the code. -/
theorem fromSettings_checks (hstd : std.fromStr "0.0.0.0".toList = some (.v4 .unspecified)) :
    Checks (settings.KeyValid std) ConfigError.Names SettingsKey.checkingOrder
      (ServerConfig.fromSettings std settings) (Lands std settings) := by
  refine (readListenAddress_checks hstd).bind ?_
  intro listenAddress hlisten
  refine readUsers_checks.bind ?_
  intro users husers
  refine readMaxConnections_checks.bind ?_
  intro maxConnections hmax
  refine (seconds_checks .handshakeTimeoutSec (by decide) Iff.rfl).bind ?_
  intro handshake hhandshake
  refine (seconds_checks .connectTimeoutSec (by decide) Iff.rfl).bind ?_
  intro connect hconnect
  refine (seconds_checks .idleTimeoutSec (by decide) Iff.rfl).bind ?_
  intro idle hidle
  refine (seconds_checks .shutdownGraceSec (by decide) Iff.rfl).bind ?_
  intro shutdownGrace hgrace
  refine (seconds_checks .statsIntervalSec (by decide) Iff.rfl).bind ?_
  intro statsInterval hstats
  refine (parseList_checks .clientWhitelist Iff.rfl).bind ?_
  intro networks hnetworks
  refine readBlockedPorts_checks.bind ?_
  intro blockedPorts hports
  refine (parseList_checks .internalWhitelist Iff.rfl).bind ?_
  intro entries hentries
  refine (seconds_checks .banWindowSec (by decide) Iff.rfl).bind ?_
  intro window hwindow
  refine (seconds_checks .banDurationSec (by decide) Iff.rfl).bind ?_
  intro duration hduration
  -- `allow_internal`, `ban_max_failures` and the size of the table are taken as they are
  exact .pure ⟨hlisten, husers, hmax, hhandshake, hconnect, hidle, hgrace, hstats, hnetworks,
    hports, rfl, hentries, rfl, hwindow, hduration, rfl⟩

end Checks

/-! ## Defaults -/

/-- A default written explicitly changes nothing. -/
theorem fromSettings_writeDefault (std : IpText) (settings : SettingsModel) (key : SettingsKey) :
    ServerConfig.fromSettings std (settings.writeDefault key) =
      ServerConfig.fromSettings std settings := by
  unfold SettingsModel.writeDefault
  split
  · next value hmissing hdefault =>
    -- `unwrap_or` gives the same value either way, whatever the key
    obtain ⟨_, _, _, _, _, _, _, _, _, _, _, _, _, _, _⟩ := settings
    cases key with
    | users => cases hdefault
    | _ =>
      cases hmissing
      cases hdefault
      rfl
  · rfl

/-- Writing out any defaults changes nothing. -/
theorem fromSettings_foldl_writeDefault (std : IpText) (keys : List SettingsKey)
    (settings : SettingsModel) :
    ServerConfig.fromSettings std (keys.foldl SettingsModel.writeDefault settings) =
      ServerConfig.fromSettings std settings := by
  induction keys generalizing settings with
  | nil => rfl
  | cons key keys ih => rw [List.foldl_cons, ih, fromSettings_writeDefault]

/-! ## Validation as a whole -/

/-- The keys without a check are valid. -/
theorem forall_keyValid_iff {std : IpText} {settings : SettingsModel} :
    (∀ key ∈ SettingsKey.checkingOrder, settings.KeyValid std key) ↔
      ∀ key, settings.KeyValid std key := by
  refine ⟨?_, fun h key _ => h key⟩
  intro h key
  by_cases hkey : key ∈ SettingsKey.checkingOrder
  · exact h key hkey
  · cases key with
    | allowInternal => exact fun _ _ => trivial
    | banMaxFailures => exact fun _ _ => trivial
    | _ => exact absurd (by decide) hkey

/--
Settings are accepted when every key is valid on its own, and else the first invalid key is
named. Accepted settings land in the field of their key, with the documented default for a
key that is missing.
-/
theorem settings_validation (std : IpText)
    (hstd : std.fromStr "0.0.0.0".toList = some (.v4 .unspecified)) (settings : SettingsModel) :
    ((∃ config, ServerConfig.fromSettings std settings = .ok config) ↔
      ∀ key, settings.KeyValid std key) ∧
    (∀ error, ServerConfig.fromSettings std settings = .error error →
      ∃ key reason, error = .invalid key.name reason ∧
        FirstInvalid (settings.KeyValid std) SettingsKey.checkingOrder key) ∧
    (∀ key, FirstInvalid (settings.KeyValid std) SettingsKey.checkingOrder key →
      ∃ reason, ServerConfig.fromSettings std settings = .error (.invalid key.name reason)) ∧
    (∀ config, ServerConfig.fromSettings std settings = .ok config →
      Lands std settings config) ∧
    ∀ keys : List SettingsKey,
      ServerConfig.fromSettings std (keys.foldl SettingsModel.writeDefault settings) =
        ServerConfig.fromSettings std settings := by
  have hchecks := @fromSettings_checks std settings hstd
  refine ⟨?_, ?_, ?_, ?_, ?_⟩
  · rw [hchecks.ok_iff, forall_keyValid_iff]
  · intro error herror
    obtain ⟨key, hfirst, reason, hreason⟩ := hchecks.of_error herror
    exact ⟨key, reason, hreason, hfirst⟩
  · intro key hfirst
    obtain ⟨error, herror, reason, rfl⟩ := (hchecks.error_iff ConfigError.Names.unique).mpr hfirst
    exact ⟨reason, herror⟩
  · intro config hconfig
    exact (hchecks.of_ok hconfig).2
  · intro keys
    exact fromSettings_foldl_writeDefault std keys settings

/-- One user and two timeouts of no seconds, of which the first one is named. -/
theorem settings_validation_two_invalid :
    let settings : SettingsModel :=
      { users := [⟨"a", "b"⟩], idleTimeoutSec := some 0, banWindowSec := some 0 }
    IpText.plain.fromStr "0.0.0.0".toList = some (.v4 .unspecified) ∧
      (∃ reason, ServerConfig.fromSettings .plain settings =
        .error (.invalid "idle_timeout_sec" reason)) ∧
      ∃ config, ServerConfig.fromSettings .plain
        { settings with idleTimeoutSec := none, banWindowSec := some 60 } = .ok config := by
  intro settings
  have hstd : IpText.plain.fromStr "0.0.0.0".toList = some (.v4 .unspecified) := by decide +kernel
  have husers : SettingsKey.Valid .plain .users [⟨"a", "b"⟩] := ⟨_, rfl⟩
  have hwindow : SettingsKey.ValidSeconds 60 := by decide
  refine ⟨hstd, ?_, ?_⟩
  · refine (settings_validation .plain hstd settings).2.2.1 .idleTimeoutSec ?_
    have hmissing : ∀ {key : SettingsKey}, settings.get key = none → settings.KeyValid .plain key :=
      SettingsModel.keyValid_of_missing
    refine .cons (hmissing rfl) (.cons (SettingsModel.keyValid_of_get rfl husers) ?_)
    refine .cons (hmissing rfl) (.cons (hmissing rfl) (.cons (hmissing rfl) (.head ?_)))
    intro hvalid
    exact absurd (hvalid 0 rfl).1 (by decide)
  · refine (settings_validation .plain hstd _).1.mpr ?_
    intro key
    cases key with
    | users => exact SettingsModel.keyValid_of_get rfl husers
    | banWindowSec => exact SettingsModel.keyValid_of_get rfl hwindow
    | _ => exact SettingsModel.keyValid_of_missing rfl

end SocksServer
