/-! # ICE servers

`ice.rs`: the list of STUN and TURN servers for a connection.  A STUN server is
always in it, and credentials only ever go to TURN servers; without a TURN server
those that were configured are dropped, and otherwise the configuration can be read
off the list (`buildIceServerList_eq_iff`).
-/
namespace CtAgentAndroid

/-- `IceServerConfig`. -/
structure IceServerConfig where
  urls : List String
  username : Option String
  credential : Option String
  deriving DecidableEq, Repr

/-- `IceServerConfig::stun`. -/
def IceServerConfig.stun (url : String) : IceServerConfig := ⟨[url], none, none⟩

/-- `default_stun_only_ice_servers`. -/
def defaultStunOnlyIceServers : List IceServerConfig := [.stun "stun:stun.l.google.com:19302"]

/-- `build_ice_server_list`. -/
def buildIceServerList (turnUrls : List String) (turnUsername turnCredential : Option String) :
    List IceServerConfig :=
  if turnUrls.isEmpty then defaultStunOnlyIceServers
  else defaultStunOnlyIceServers ++ [⟨turnUrls, turnUsername, turnCredential⟩]

section Build
variable {urls urls' : List String} {username username' credential credential' : Option String}

/-- **The list tells the configuration**, as far as there are TURN servers. -/
theorem buildIceServerList_eq_iff :
    buildIceServerList urls username credential = buildIceServerList urls' username' credential' ↔
      urls = urls' ∧ (urls ≠ [] → username = username' ∧ credential = credential') := by
  rcases urls with _ | ⟨url, urls⟩ <;> rcases urls' with _ | ⟨url', urls'⟩ <;>
    simp [buildIceServerList, defaultStunOnlyIceServers, and_assoc]

/-- No STUN server is given a credential. -/
theorem urls_of_mem_buildIceServerList {server : IceServerConfig}
    (h : server ∈ buildIceServerList urls username credential) (hstun : server.urls ≠ urls) :
    server.username = none ∧ server.credential = none := by
  unfold buildIceServerList at h
  split at h
  · obtain rfl := List.mem_singleton.mp h
    exact ⟨rfl, rfl⟩
  · rcases List.mem_append.mp h with h | h
    · obtain rfl := List.mem_singleton.mp h
      exact ⟨rfl, rfl⟩
    · obtain rfl := List.mem_singleton.mp h
      exact absurd rfl hstun

end Build
end CtAgentAndroid
