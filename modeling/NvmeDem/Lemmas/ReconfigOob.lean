import NvmeDem.Lemmas.Reconfig

/-!
# What the requests of a reconfiguration write

The out-of-band side: a URI is taken apart again into what it was made of, a body spells the value that the manager reads, and
so each request writes one item at the manager. Names are written into URIs and bodies as they are, with nothing escaped; these
lemmas are about names that need no escape.
-/

namespace NvmeDem

open Jansson Link Upsert

namespace Push

/-! ## What a target is -/

/-- What the fields of a target and of its ports, subsystems and namespaces hold. -/
structure Held (target : Target) : Prop where
  address : target.oob.address.length ≤ configAddressSize
  port : IsInt target.oob.port
  portid : ∀ portid ∈ target.portidList, IsInt portid.portid ∧ IsInt portid.portNum
  access : ∀ subsys ∈ target.subsysList, IsInt subsys.access
  ns : ∀ subsys ∈ target.subsysList, ∀ ns ∈ subsys.nsList, IsInt ns.nsid ∧ IsInt ns.devid ∧ IsInt ns.devns

/-- A character that stands for itself in a URI and in a JSON text, and is no slash. -/
def plainChar (c : Char) : Bool :=
  decide (32 < c.toNat) && decide (c.toNat < 127) && !(['"', '\\', '/', '?', '#', '%'].contains c)

def Plain (s : String) : Prop := ∀ c ∈ s.toList, plainChar c = true

instance (s : String) : Decidable (Plain s) := decidable_of_iff (s.toList.all plainChar = true) List.all_eq_true

structure NamesPlain (target : Target) : Prop where
  port : ∀ portid ∈ target.portidList, Plain portid.type ∧ Plain portid.family ∧ Plain portid.address
  subsys : ∀ subsys ∈ target.subsysList, Plain subsys.nqn
  host : ∀ subsys ∈ target.subsysList, ∀ host ∈ subsys.hostList, Plain host.nqn

/-! ## The values that the bodies spell -/

def portValue (portid : Portid) : Json :=
  .object [(tagType, .string portid.type), (tagFamily, .string portid.family), (tagAddress, .string portid.address),
    (tagTrsvcid, .integer portid.portNum)]

def hostValue (host : Host) : Json := .object [(tagHostnqn, .string host.nqn)]

def subsysValue (subsys : Subsystem) : Json :=
  .object [(tagSubnqn, .string subsys.nqn), (tagAllowAny, .integer subsys.access)]

def nsValue (ns : Ns) : Json :=
  .object [(tagNsid, .integer ns.nsid), (tagDevid, .integer ns.devid), (tagDevnsid, .integer ns.devns)]

def portidValue (portid : Portid) : Json := .object [(tagPortid, .integer portid.portid)]

/-- The server hands over the path of a URL, and the parser reads the bodies as they are spelled. -/
structure ReadsAsWritten (http : HttpLib) (json : JsonLib) (target : Target) : Prop where
  uri : ∀ path, (∀ c ∈ path.toList, plainChar c = true ∨ c = '/') → http.uri (getUri target ++ path) = some ("/" ++ path)
  port : ∀ portid ∈ target.portidList, json.loads (buildSetPortOob portid) = some (portValue portid)
  portid : ∀ portid ∈ target.portidList, json.loads (buildSetPortidOob portid.portid) = some (portidValue portid)
  subsys : ∀ subsys ∈ target.subsysList, json.loads (buildSetSubsysOob subsys) = some (subsysValue subsys)
  ns : ∀ subsys ∈ target.subsysList, ∀ ns ∈ subsys.nsList, json.loads (buildSetNsOob ns) = some (nsValue ns)
  host : ∀ subsys ∈ target.subsysList, ∀ host ∈ subsys.hostList,
    json.loads (buildSetHostOob host.nqn) = some (hostValue host)

/-! ## What a target should be sent -/

def portItem (portid : Portid) : Item :=
  .port portid.portid portid.family portid.type 0 portid.address portid.portNum

def subsysItem (subsys : Subsystem) : Item := .subsys subsys.nqn (!subsys.isRestricted)

def nsItem (subsys : Subsystem) (ns : Ns) : Item := .ns subsys.nqn ns.nsid ns.devid ns.devns

def hostItems (subsys : Subsystem) (host : Host) : List Item := [.host host.nqn, .hostLink subsys.nqn host.nqn]

def portLinkItem (subsys : Subsystem) (portid : Portid) : Item := .portLink subsys.nqn portid.portid

def subsysParts (target : Target) (subsys : Subsystem) : List Item :=
  [subsysItem subsys] ++
    (subsys.nsList.map (nsItem subsys) ++
    (subsys.hostList.flatMap (hostItems subsys) ++
    (if isHidden subsys then [] else target.portidList.map (portLinkItem subsys))))

/-- The configuration of a target: its ports, its subsystems, their namespaces, hosts and links. -/
def projection (target : Target) : List Item :=
  target.portidList.map portItem ++ target.subsysList.flatMap (subsysParts target)

/-! ## URIs -/

theorem not_slash_of_plainChar {c : Char} (h : plainChar c = true) : c ≠ '/' := by
  rintro rfl
  exact absurd h (by decide)

theorem plainChar_of_isDigit {c : Char} (h : c.isDigit = true) : plainChar c = true := by
  obtain ⟨hlo, hhi⟩ := Char.isDigit_iff_toNat.1 h
  have hcases : ∀ n, '0'.toNat ≤ n → n ≤ '9'.toNat → plainChar (Char.ofNat n) = true := by decide
  rw [← Char.ofNat_toNat c]
  exact hcases _ hlo hhi

theorem plain_toString (n : Int) : Plain (toString n) := by
  have hnat : ∀ m : Nat, ∀ c ∈ m.repr.toList, plainChar c = true := by
    intro m c hc
    rw [Nat.toList_repr] at hc
    exact plainChar_of_isDigit (Nat.isDigit_of_mem_toDigits (by decide) (by decide) hc)
  cases n with
  | ofNat m => exact hnat m
  | negSucc m =>
    have hrepr : toString (Int.negSucc m) = "-" ++ (m + 1).repr := rfl
    intro c hc
    rw [hrepr, String.toList_append] at hc
    rcases List.mem_append.1 hc with hc | hc
    · have hminus : c = '-' := List.mem_singleton.1 hc
      rw [hminus]
      decide
    · exact hnat (m + 1) c hc

/-- A path of plain parts. -/
structure PathOf (path : String) (parts : List String) : Prop where
  text : path.toList = ['/'].intercalate (parts.map String.toList)
  plain : ∀ part ∈ parts, Plain part
  ne : parts ≠ []

theorem PathOf.parseUri {path : String} {parts : List String} (h : PathOf path parts) : parseUri ("/" ++ path) = parts := by
  have htext : ("/" ++ path).toList = ['/'].intercalate ([] :: parts.map String.toList) := by
    rw [List.intercalate_cons_of_ne_nil (by simpa using h.ne), String.toList_append, h.text]
    rfl
  have hsplit : ("/" ++ path).toList.splitOn '/' = [] :: parts.map String.toList := by
    rw [htext]
    refine List.splitOn_intercalate '/' ?_ (by simp)
    intro l hl hslash
    rcases List.mem_cons.1 hl with rfl | hl
    · exact List.not_mem_nil hslash
    · obtain ⟨part, hpart, rfl⟩ := List.mem_map.1 hl
      exact not_slash_of_plainChar (h.plain part hpart _ hslash) rfl
  unfold NvmeDem.parseUri
  rw [hsplit, List.drop_one, List.tail_cons, List.map_map]
  simp

theorem PathOf.chars {path : String} {parts : List String} (h : PathOf path parts) :
    ∀ c ∈ path.toList, plainChar c = true ∨ c = '/' := by
  rw [h.text]
  have hplain := h.plain
  clear h
  induction parts with
  | nil => simp
  | cons part parts ih =>
    have hpart := hplain part List.mem_cons_self
    have hrest := ih (fun p hp => hplain p (List.mem_cons_of_mem part hp))
    by_cases hne : parts = []
    · subst hne
      intro c hc
      exact Or.inl (hpart c (by simpa using hc))
    · intro c hc
      rw [List.map_cons, List.intercalate_cons_of_ne_nil (by simpa using hne)] at hc
      rcases List.mem_append.1 hc with hc | hc
      · rcases List.mem_append.1 hc with hc | hc
        · exact Or.inl (hpart c hc)
        · exact Or.inr (List.mem_singleton.1 hc)
      · exact hrest c hc

theorem pathOf_one {p : String} (hp : Plain p) : PathOf p [p] where
  text := by simp
  plain := by simpa using hp
  ne := by simp

theorem pathOf_two {p q : String} (hp : Plain p) (hq : Plain q) : PathOf s!"{p}/{q}" [p, q] where
  text := by simp [List.intercalate_cons_cons, toString]
  plain := by simp [hp, hq]
  ne := by simp

theorem pathOf_three {p q r : String} (hp : Plain p) (hq : Plain q) (hr : Plain r) : PathOf s!"{p}/{q}/{r}" [p, q, r] where
  text := by simp [List.intercalate_cons_cons, toString]
  plain := by simp [hp, hq, hr]
  ne := by simp

/-! ## One request -/

section

variable {w : Wire} {target : Target}

/-- A URI that the buffer holds. -/
def UriFits (target : Target) (path : String) : Prop := (getUri target ++ path).length < maxUriSize

instance (target : Target) (path : String) : Decidable (UriFits target path) := inferInstanceAs (Decidable (_ < _))

/-- A request that the manager takes as one change, or refuses. -/
theorem does_execRequest {path : String} {parts : List String} {taken : Prop} {change : Change}
    {handle : Finset Item → List String → Except Fault (Int × Finset Item)} (hw : ReadsAsWritten w.http w.json target)
    (hpath : PathOf path parts) (htaken : taken → ∀ config, handle config parts = .ok (0, applyChange config change))
    (hrefused : ¬taken → ∀ config, ∃ status, status ≠ 0 ∧ handle config parts = .ok (status, config)) :
    Does w (execRequest w target path handle) (UriFits target path) taken [change] := by
  have huri := hw.uri path hpath.chars
  have hrun : ∀ config, ∃ out, request w (getUri target ++ path) handle config = .ok out ∧
      (taken → out = (0, applyChange config change)) ∧ (¬taken → out.1 ≠ 0) := by
    intro config
    simp only [request, huri, hpath.parseUri]
    by_cases ht : taken
    · exact ⟨(0, applyChange config change), by rw [htaken ht]; rfl, fun _ => rfl, fun hn => absurd ht hn⟩
    · obtain ⟨status, hne, hstatus⟩ := hrefused ht config
      exact ⟨(-einval, config), by rw [hstatus]; simp [Except.map, hne], fun h => absurd h ht,
        fun _ => (by decide : -einval ≠ 0)⟩
  have hattempt : Does w (attempt w.net (request w (getUri target ++ path) handle)) True taken [change] := Writes.attempt
    (fun _ far => (hrun far).imp fun _ h => h.1)
    (by
      intro far far' hok
      obtain ⟨out, hout, ht, hn⟩ := hrun far
      rw [hout] at hok
      cases hok
      by_cases htaken : taken
      · have hfar := ht htaken
        cases hfar
        exact ⟨trivial, htaken, rfl⟩
      · exact absurd rfl (hn htaken))
    (by
      intro htaken far ret far' hok
      obtain ⟨out, hout, ht, -⟩ := hrun far
      rw [hout] at hok
      cases hok
      exact congrArg Prod.fst (ht htaken))
  by_cases hfits : UriFits target path
  · have hlt : (getUri target ++ path).length < maxUriSize := hfits
    have heq : uriTo target path = .ok (getUri target ++ path) := by rw [uriTo, if_pos hlt]
    have hprog : execRequest w target path handle = attempt w.net (request w (getUri target ++ path) handle) := by
      funext s
      simp only [execRequest, heq]
    rw [hprog]
    exact hattempt.congr (by simp [hfits]) Iff.rfl rfl
  · have hlt : ¬(getUri target ++ path).length < maxUriSize := hfits
    have heq : uriTo target path = .error .outOfBounds := by rw [uriTo, if_neg hlt]
    have hprog : ∀ s, execRequest w target path handle s = .error .outOfBounds := by
      intro s
      simp only [execRequest, heq]
    constructor
    · exact fun h => absurd h hfits
    · intro s ret s' hok
      rw [hprog] at hok
      cases hok
    · intro _ _ s ret s' hok
      rw [hprog] at hok
      cases hok

/-! ## Every request -/

theorem ne_empty_jsObject (fields : List String) : jsObject fields ≠ "" := by
  intro h
  have hlen := congrArg String.length h
  simp [jsObject] at hlen

theorem plain_uri : Plain uriConfig ∧ Plain uriSubsystem ∧ Plain uriPortid ∧ Plain uriHost ∧ Plain uriNamespace := by
  decide +kernel

section

variable {J : JsonLib} {config : Finset Item} {name body : String}

attribute [local simp] postRequest

theorem postRequest_portid (hb : body ≠ "") :
    postRequest J config [uriPortid, name] body = postPortid J config (some name) body := by
  simp [hb, uriPortid, uriSubsystem]

theorem postRequest_subsys (hb : body ≠ "") : postRequest J config [uriSubsystem] body = .ok (postSubsys J config none body) := by
  simp [hb]

theorem postRequest_host (hb : body ≠ "") : postRequest J config [uriHost] body = postHost J config body := by
  simp [hb, uriHost, uriPortid, uriSubsystem]

theorem postRequest_ns (hb : body ≠ "") :
    postRequest J config [uriSubsystem, name, uriNamespace] body = .ok (postNs J config name none body) := by
  simp [hb]

theorem postRequest_linkHost (hb : body ≠ "") :
    postRequest J config [uriSubsystem, name, uriHost] body = linkHostRequest J config name body := by
  simp [hb, uriHost, uriNamespace]

theorem postRequest_linkPortid (hb : body ≠ "") :
    postRequest J config [uriSubsystem, name, uriPortid] body = .ok (linkPortidRequest J config name body) := by
  simp [hb, uriPortid, uriHost, uriNamespace]

end

theorem does_deleteConfig (hw : ReadsAsWritten w.http w.json target) :
    Does w (execDelete w target uriConfig) (UriFits target uriConfig) True [.reset] :=
  does_execRequest hw (pathOf_one plain_uri.1) (fun _ _ => rfl) (fun h => absurd trivial h)

/-- A port whose identifier the manager allows. -/
def PortidAllowed (portid : Portid) : Prop := minPortid ≤ portid.portid ∧ portid.portid ≤ maxPortid

theorem postPortid_value {portid : Portid} {config : Finset Item} (hw : ReadsAsWritten w.http w.json target) (hheld : Held target)
    (hp : portid ∈ target.portidList) :
    postPortid w.json config (some (toString portid.portid)) (buildSetPortOob portid) =
      if portid.portid < minPortid ∨ maxPortid < portid.portid then .ok (invalidData config)
      else .ok (0, applyChange config (.put (portItem portid))) := by
  have hread : atoi (toString portid.portid).toList = portid.portid := atoi_toString (hheld.portid portid hp).1
  have hsvcid := cInt_of_isInt (hheld.portid portid hp).2
  simp only [postPortid, hread, hw.port portid hp]
  simp [portValue, portItem, Json.objectGet, List.lookup_cons, Json.stringValue, Json.integerValue, flagField, hsvcid, tagType,
    tagFamily, tagAddress, tagTrsvcid, tagTreq, createPortid, changed]

theorem does_configPortidOob {portid : Portid} (hw : ReadsAsWritten w.http w.json target) (hheld : Held target)
    (hp : portid ∈ target.portidList) :
    Does w (configPortidOob w target portid) (UriFits target s!"{uriPortid}/{portid.portid}") (PortidAllowed portid)
      [.put (portItem portid)] := by
  have hpath : PathOf s!"{uriPortid}/{portid.portid}" [uriPortid, toString portid.portid] :=
    pathOf_two plain_uri.2.2.1 (plain_toString _)
  have hb : buildSetPortOob portid ≠ "" := ne_empty_jsObject _
  refine does_execRequest hw hpath ?_ ?_
  · rintro ⟨hlo, hhi⟩ config
    rw [postRequest_portid hb, postPortid_value hw hheld hp, if_neg (by omega)]
  · intro ht config
    refine ⟨httpErrInternal, by decide, ?_⟩
    have hout : portid.portid < minPortid ∨ maxPortid < portid.portid := by
      unfold PortidAllowed at ht
      omega
    rw [postRequest_portid hb, postPortid_value hw hheld hp, if_pos hout]
    rfl

/-- A request that the manager takes whatever is in it. -/
theorem does_execPost {path body : String} {parts : List String} {change : Change}
    (hw : ReadsAsWritten w.http w.json target) (hpath : PathOf path parts)
    (htaken : ∀ config, postRequest w.json config parts body = .ok (0, applyChange config change)) :
    Does w (execPost w target path body) (UriFits target path) True [change] :=
  does_execRequest hw hpath (fun _ => htaken) (fun h => absurd trivial h)

theorem does_setSubsysOob {subsys : Subsystem} (hw : ReadsAsWritten w.http w.json target) (hs : subsys ∈ target.subsysList) :
    Does w (sendSetConfigOob w target uriSubsystem (buildSetSubsysOob subsys)) (UriFits target uriSubsystem) True
      [.put (subsysItem subsys)] := by
  refine does_execPost hw (pathOf_one plain_uri.2.1) (fun config => ?_)
  have hb : buildSetSubsysOob subsys ≠ "" := ne_empty_jsObject _
  have hvalue : flagField tagAllowAny (subsysValue subsys) = if subsys.access = 0 then 0 else 1 := rfl
  have hnqn : (subsysValue subsys).strField tagSubnqn = some subsys.nqn := by
    simp [subsysValue, Json.strField, Json.objectGet, Json.stringValue]
  rw [postRequest_subsys hb, postSubsys, hw.subsys subsys hs]
  simp only [hvalue, hnqn, Option.none_or]
  by_cases ha : subsys.access = 0
  · simp [ha, createSubsys, changed, subsysItem, Subsystem.isRestricted, restricted]
  · have hbeq : (subsys.access == 0) = false := by simpa using ha
    simp [ha, hbeq, createSubsys, changed, subsysItem, Subsystem.isRestricted, restricted]

theorem does_setNsOob {subsys : Subsystem} {ns : Ns} (hw : ReadsAsWritten w.http w.json target) (hheld : Held target)
    (hplain : NamesPlain target) (hs : subsys ∈ target.subsysList) (hn : ns ∈ subsys.nsList) :
    Does w (sendUpdateSubsysOob w target subsys.nqn uriNamespace (buildSetNsOob ns))
      (UriFits target s!"{uriSubsystem}/{subsys.nqn}/{uriNamespace}") True [.put (nsItem subsys ns)] := by
  have hpath := pathOf_three plain_uri.2.1 (hplain.subsys subsys hs) plain_uri.2.2.2.2
  refine does_execPost hw hpath (fun config => ?_)
  have hb : buildSetNsOob ns ≠ "" := ne_empty_jsObject _
  obtain ⟨hnsid, hdevid, hdevns⟩ := hheld.ns subsys hs ns hn
  rw [postRequest_ns hb, postNs, hw.ns subsys hs ns hn]
  simp [nsValue, nsItem, Json.objectGet, List.lookup_cons, Json.integerValue, tagNsid, tagDevid, tagDevnsid, createNs, changed,
    cInt_of_isInt hnsid, cInt_of_isInt hdevid, cInt_of_isInt hdevns]

theorem loads_host {subsys : Subsystem} {host : Host} (hw : ReadsAsWritten w.http w.json target)
    (hs : subsys ∈ target.subsysList) (hh : host ∈ subsys.hostList) (config : Finset Item)
    (create : String → Int × Finset Item) :
    postNqn w.json config (buildSetHostOob host.nqn) create = .ok (create host.nqn) := by
  rw [postNqn, hw.host subsys hs host hh]
  simp [hostValue, Json.objectGet, Json.stringValue]

theorem does_setHostOob {subsys : Subsystem} {host : Host} (hw : ReadsAsWritten w.http w.json target)
    (hs : subsys ∈ target.subsysList) (hh : host ∈ subsys.hostList) :
    Does w (sendSetConfigOob w target uriHost (buildSetHostOob host.nqn)) (UriFits target uriHost) True
      [.put (.host host.nqn)] := by
  refine does_execPost hw (pathOf_one plain_uri.2.2.2.1) (fun config => ?_)
  have hb : buildSetHostOob host.nqn ≠ "" := ne_empty_jsObject _
  rw [postRequest_host hb, postHost, loads_host hw hs hh]
  rfl

theorem does_linkHostOob {subsys : Subsystem} {host : Host} (hw : ReadsAsWritten w.http w.json target)
    (hplain : NamesPlain target) (hs : subsys ∈ target.subsysList) (hh : host ∈ subsys.hostList) :
    Does w (sendUpdateSubsysOob w target subsys.nqn uriHost (buildSetHostOob host.nqn))
      (UriFits target s!"{uriSubsystem}/{subsys.nqn}/{uriHost}") True [.put (.hostLink subsys.nqn host.nqn)] := by
  have hpath := pathOf_three plain_uri.2.1 (hplain.subsys subsys hs) plain_uri.2.2.2.1
  refine does_execPost hw hpath (fun config => ?_)
  have hb : buildSetHostOob host.nqn ≠ "" := ne_empty_jsObject _
  rw [postRequest_linkHost hb, linkHostRequest, loads_host hw hs hh]
  rfl

theorem does_linkPortidOob {subsys : Subsystem} {portid : Portid} (hw : ReadsAsWritten w.http w.json target)
    (hheld : Held target) (hplain : NamesPlain target) (hs : subsys ∈ target.subsysList) (hp : portid ∈ target.portidList) :
    Does w (sendLinkPortidOob w target subsys portid) (UriFits target s!"{uriSubsystem}/{subsys.nqn}/{uriPortid}") True
      [.put (portLinkItem subsys portid)] := by
  have hpath := pathOf_three plain_uri.2.1 (hplain.subsys subsys hs) plain_uri.2.2.1
  refine does_execPost hw hpath (fun config => ?_)
  have hb : buildSetPortidOob portid.portid ≠ "" := ne_empty_jsObject _
  rw [postRequest_linkPortid hb, linkPortidRequest, hw.portid portid hp]
  simp [portidValue, portLinkItem, Json.objectGet, Json.integerValue, linkPortToSubsys, changed,
    cInt_of_isInt (hheld.portid portid hp).1]

/-! ## The configuration out of band -/

/-- The URIs that are written for a subsystem of a target. -/
structure UrisFit (target : Target) (subsys : Subsystem) : Prop where
  ns : subsys.nsList ≠ [] → UriFits target s!"{uriSubsystem}/{subsys.nqn}/{uriNamespace}"
  host : subsys.hostList ≠ [] → UriFits target s!"{uriSubsystem}/{subsys.nqn}/{uriHost}"
  portid : isHidden subsys = false → target.portidList ≠ [] → UriFits target s!"{uriSubsystem}/{subsys.nqn}/{uriPortid}"

/-- The URIs that are as long as the address and the port of a target make them fit. -/
theorem uriFits_of_length {path : String} (hheld : Held target) (hpath : path.length ≤ 20) : UriFits target path := by
  have hport := length_toString_le hheld.port
  have haddress := hheld.address
  have hbase : (getUri target).length = 7 + target.oob.address.length + 1 + (toString target.oob.port).length + 1 := by
    unfold getUri
    simp only [String.length_append]
    rfl
  unfold UriFits
  rw [String.length_append, hbase]
  unfold configAddressSize at haddress
  unfold maxUriSize
  omega

theorem uriFits_portid {portid : Portid} (hheld : Held target) (hp : portid ∈ target.portidList) :
    UriFits target s!"{uriPortid}/{portid.portid}" := by
  refine uriFits_of_length hheld ?_
  have hlen := length_toString_le (hheld.portid portid hp).1
  have htext : (s!"{uriPortid}/{portid.portid}").length = 7 + (toString portid.portid).length := by
    simp only [String.length_append]
    rfl
  omega

theorem does_configSubsysOob {subsys : Subsystem} (hw : ReadsAsWritten w.http w.json target) (hheld : Held target)
    (hplain : NamesPlain target) (hs : subsys ∈ target.subsysList) :
    Does w (configSubsysOob w target subsys) (UrisFit target subsys) True ((subsysParts target subsys).map Change.put) := by
  have hsubsys := does_setSubsysOob hw hs
  have hns := Writes.eachRegardlessOne (fun ns (hn : ns ∈ subsys.nsList) => does_setNsOob hw hheld hplain hs hn)
  have hhosts := Writes.eachRegardless (fun host (hh : host ∈ subsys.hostList) =>
    (does_setHostOob hw hs hh).andThen (does_linkHostOob hw hplain hs hh))
  have hports := Writes.eachRegardlessOne (fun portid (hp : portid ∈ target.portidList) =>
    does_linkPortidOob hw hheld hplain hs hp)
  have hlinks : Does w
      (if isHidden subsys then done else eachRegardless (sendLinkPortidOob w target subsys) target.portidList)
      (isHidden subsys = false → ∀ portid ∈ target.portidList, UriFits target s!"{uriSubsystem}/{subsys.nqn}/{uriPortid}") True
      ((if isHidden subsys then [] else target.portidList.map (portLinkItem subsys)).map Change.put) := by
    cases hh : isHidden subsys
    · exact hports.congr (by simp) (by simp) (by simp)
    · simpa using Writes.done
  refine (hsubsys.andThen (hns.regardless (hhosts.regardless hlinks))).congr ?_ (by simp) ?_
  · have hfixed : UriFits target uriSubsystem ∧ UriFits target uriHost :=
      ⟨uriFits_of_length hheld (by decide), uriFits_of_length hheld (by decide)⟩
    constructor
    · rintro ⟨-, hn, hh, hp⟩
      constructor
      · intro hne
        obtain ⟨ns, hmem⟩ := List.exists_mem_of_ne_nil _ hne
        exact hn ns hmem
      · intro hne
        obtain ⟨host, hmem⟩ := List.exists_mem_of_ne_nil _ hne
        exact (hh host hmem).2
      · intro hhidden hne
        obtain ⟨portid, hmem⟩ := List.exists_mem_of_ne_nil _ hne
        exact hp hhidden portid hmem
    · rintro ⟨hn, hh, hp⟩
      exact ⟨hfixed.1, fun ns hmem => hn (List.ne_nil_of_mem hmem),
        fun host hmem => ⟨hfixed.2, hh (List.ne_nil_of_mem hmem)⟩,
        fun hhidden portid hmem => hp hhidden (List.ne_nil_of_mem hmem)⟩
  · simp [subsysParts, hostItems, List.map_flatMap]

theorem does_portsOob (hw : ReadsAsWritten w.http w.json target) (hheld : Held target) :
    Does w (each (configPortidOob w target) target.portidList) True (∀ portid ∈ target.portidList, PortidAllowed portid)
      ((target.portidList.map portItem).map Change.put) := by
  refine (Writes.eachOne (fun portid (hp : portid ∈ target.portidList) => does_configPortidOob hw hheld hp)).congr ?_ Iff.rfl
    (by simp)
  exact iff_of_true (fun portid hp => uriFits_portid hheld hp) trivial

/-- The manager takes the ports of a program that ends with zero. -/
theorem allowed_of_portsOob_zero {s s' : Session (Finset Item)} (hw : ReadsAsWritten w.http w.json target) (hheld : Held target)
    (h : each (configPortidOob w target) target.portidList s = .ok (0, s')) :
    ∀ portid ∈ target.portidList, PortidAllowed portid := by
  intro portid hp
  obtain ⟨s₁, s₂, hs⟩ := each_zero h portid hp
  have hpath : PathOf s!"{uriPortid}/{portid.portid}" [uriPortid, toString portid.portid] :=
    pathOf_two plain_uri.2.2.1 (plain_toString _)
  have hfits : (getUri target ++ s!"{uriPortid}/{portid.portid}").length < maxUriSize := uriFits_portid hheld hp
  have heq : uriTo target s!"{uriPortid}/{portid.portid}" = .ok (getUri target ++ s!"{uriPortid}/{portid.portid}") := by
    rw [uriTo, if_pos hfits]
  have hb : buildSetPortOob portid ≠ "" := ne_empty_jsObject _
  unfold configPortidOob execPost execRequest at hs
  rw [heq] at hs
  obtain ⟨far, hfar⟩ := attempt_zero hs
  unfold request at hfar
  rw [hw.uri _ hpath.chars] at hfar
  simp only [hpath.parseUri, postRequest_portid hb, postPortid_value hw hheld hp] at hfar
  by_contra hn
  have hout : portid.portid < minPortid ∨ maxPortid < portid.portid := by
    unfold PortidAllowed at hn
    omega
  rw [if_pos hout] at hfar
  cases hfar

theorem does_configTargetOob (hw : ReadsAsWritten w.http w.json target) (hheld : Held target) (hplain : NamesPlain target) :
    Does w (configTargetOob w target) (∀ subsys ∈ target.subsysList, UrisFit target subsys)
      (∀ portid ∈ target.portidList, PortidAllowed portid) ((projection target).map Change.put) := by
  have hsubs := Writes.each (fun subsys (hs : subsys ∈ target.subsysList) => does_configSubsysOob hw hheld hplain hs)
  refine ((does_portsOob hw hheld).andThen hsubs).congr (by simp) (by simp) ?_
  simp [projection, List.map_flatMap]

end

end Push

end NvmeDem
