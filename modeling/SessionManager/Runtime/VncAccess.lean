import SessionManager.Agents.Values
import SessionManager.Library.Base64
import SessionManager.Library.FormUrl
import SessionManager.Library.Unicode
import SessionManager.Runtime.Docker

/-! The address of a desktop and the key its token is signed with. -/

namespace session_manager

private theorem utf8.decode_encode {text : List Char} (h : ∀ c ∈ text, c.toNat < 128) :
    decode_from none (unicode.encode text) = text := by
  induction text with
  | nil => rfl
  | cons c text ih =>
    have hc : c.toNat < 128 := h c List.mem_cons_self
    have hvalue : (UInt8.ofNat c.toNat).toNat = c.toNat := by
      rw [UInt8.toNat_ofNat', Nat.mod_eq_of_lt (by omega)]
    have hfirst : first c.toNat = ([c], none) := by
      rw [first, if_pos (by omega), Char.ofNat_toNat]
    rw [unicode.encode_cons, unicode.encodeChar_ascii hc, List.singleton_append, decode_from, hvalue, next, hfirst,
      ih fun d hd => h d (List.mem_cons_of_mem _ hd)]
    rfl

namespace docker_runtime

/-- `base64.urlsafe_b64encode(secret).decode().rstrip("=")` -/
def jwt_key (secret : List UInt8) : List Char := (base64.encode secret).rdropWhile (· = '=')

/-- The environment with which `create` starts a container, as Docker lists it. -/
def create_environment (session_id : List Char) (secret : List UInt8) : List (List Char) :=
  [("SESSION_ID", session_id), ("VNC_JWT_KEY", jwt_key secret), ("DISPLAY_NUM", ['1']),
    ("WIDTH", "1024".toList), ("HEIGHT", "768".toList)].map fun (name, value) => name.toList ++ '=' :: value

/-- The attributes `issue_vnc_access` reads from a reloaded container, with the
host ports bound to `VNC_PORT`. -/
structure Inspected where
  status : String
  health : Option String
  environment : List (List Char)
  host_ports : List Nat
deriving DecidableEq, Repr

def _environment_value (environment : List (List Char)) (name : String) : Option (List Char) :=
  let start := name.toList ++ ['=']
  (environment.find? start.isPrefixOf).map (·.drop start.length)

structure Claims where
  host : String
  port : Nat
  exp : Nat
  jti : List Char
deriving DecidableEq, Repr

/-- The claims of a token issued at `now` that ends `ttl` seconds later; times are
in microseconds. -/
def vnc_claims (now ttl : Nat) (jti : List Char) : Claims where
  host := "127.0.0.1"
  port := 5900
  exp := (now + ttl * 1000000) / 1000000
  jti := jti

inductive VncError
  | RuntimeError (message : String)
  | binascii_Error
deriving DecidableEq, Repr

/-- `base64.urlsafe_b64decode(encoded_key + padding)` -/
def signing_key (encoded_key : List Char) : Except VncError (List UInt8) :=
  match base64.decode (encoded_key ++ base64.padding encoded_key) with
  | none => .error .binascii_Error
  | some key => .ok key

def _host_port (host_ports : List Nat) : Except VncError Nat :=
  match host_ports with
  | [] => .error (.RuntimeError "会话桌面没有可用的 noVNC 主机端口。")
  | host_port :: _ => .ok host_port

/-- The query for a path; noVNC passes nothing but the path on to the WebSocket. -/
def vnc_fields (path : List Char) : List (List UInt8 × List UInt8) :=
  [("autoconnect", ['1']), ("resize", "scale".toList), ("reconnect", ['1']), ("path", path)].map
    fun (name, value) => (unicode.encode name.toList, unicode.encode value)

def vnc_path (token : List Char) : List Char := "websockify".toList ++ '?' :: ("token".toList ++ '=' :: token)

def vnc_query (token : List Char) : List Char := form_url.urlencode (vnc_fields (vnc_path token))

def vnc_page (public_host : List Char) (host_port : Nat) : List Char :=
  "http://".toList ++ public_host ++ ':' :: (Nat.repr host_port).toList ++ "/vnc.html".toList

def vnc_url (public_host : List Char) (host_port : Nat) (token : List Char) : List Char :=
  vnc_page public_host host_port ++ '?' :: vnc_query token

/-- The URL and the end of its token; `encode` is `jwt.encode` with HS256. -/
def issue_vnc_access (encode : Claims → List UInt8 → List Char) (public_host : List Char) (now ttl : Nat)
    (jti : List Char) : Option Inspected → Except VncError (List Char × Nat)
  | none => .error (.RuntimeError "会话桌面容器不存在。")
  | some container =>
    if container.status ≠ "running" ∨ container.health ≠ some "healthy" then
      .error (.RuntimeError "会话桌面尚未就绪。")
    else match _environment_value container.environment "VNC_JWT_KEY" with
      | none | some [] => .error (.RuntimeError "会话桌面缺少 VNC 签名密钥。")
      | some encoded_key => do
        let key ← signing_key encoded_key
        let token := encode (vnc_claims now ttl jti) key
        let host_port ← _host_port container.host_ports
        return (vnc_url public_host host_port token, now + ttl * 1000000)

/-- `parse_qs(urlparse(url).query)[name][0]` -/
def query_value (name : String) (url : List Char) : Option (List Char) :=
  let query := ((url.takeWhile (· ≠ '#')).dropWhile (· ≠ '?')).tail
  ((form_url.parse query).find? fun pair => pair.1 = unicode.encode name.toList ∧ pair.2 ≠ []).map
    fun pair => utf8.decode_from none pair.2

/-- A character of a token: a digit of its parts or what separates them. -/
def TokenChar (c : Char) : Prop := c.isAlphanum = true ∨ c ∈ ['-', '_', '.']

instance : DecidablePred TokenChar := fun c =>
  inferInstanceAs (Decidable (c.isAlphanum = true ∨ c ∈ ['-', '_', '.']))

/-- The key that a sandbox reads from its environment. -/
def sandbox_key (environment : List (List Char)) : Option (List UInt8) :=
  (_environment_value environment "VNC_JWT_KEY").bind fun encoded_key => (signing_key encoded_key).toOption

variable {secret : List UInt8} {session_id public_host token jti : List Char} {image : List (List Char)}
  {container : Inspected} {encode : Claims → List UInt8 → List Char} {now ttl : Nat}

/-- What the image adds to the environment comes after the key. -/
private theorem environment_value_created (session_id : List Char) (secret : List UInt8) (image : List (List Char)) :
    _environment_value (create_environment session_id secret ++ image) "VNC_JWT_KEY" = some (jwt_key secret) := by
  have hsession (value : List Char) :
      ("VNC_JWT_KEY".toList ++ ['=']).isPrefixOf ("SESSION_ID".toList ++ '=' :: value) = false := rfl
  have hkey (value : List Char) :
      ("VNC_JWT_KEY".toList ++ ['=']).isPrefixOf ("VNC_JWT_KEY".toList ++ '=' :: value) = true := rfl
  rw [_environment_value, create_environment, List.map_cons, List.map_cons, List.cons_append, List.cons_append,
    List.find?_cons_of_neg (by rw [hsession]; decide), List.find?_cons_of_pos (hkey _), Option.map_some]
  rfl

private theorem jwt_key_eq (secret : List UInt8) : jwt_key secret = base64.digits secret :=
  base64.rdropWhile_encode secret

/-- The padding that the text of the key has lost is put back, so a token is signed with
the secret itself. -/
theorem signing_key_jwt_key (secret : List UInt8) : signing_key (jwt_key secret) = .ok secret := by
  rw [signing_key, jwt_key_eq, ← base64.encode, base64.decode_encode]

private theorem jwt_key_ne_nil (hsecret : secret ≠ []) : jwt_key secret ≠ [] := by
  rw [jwt_key_eq]
  cases secret using base64.digits.induct with
  | case1 => exact absurd rfl hsecret
  | case2 | case3 | case4 => exact List.cons_ne_nil _ _

/-- The sandbox checks tokens under the secret of its own environment, whatever the
image adds behind it. -/
theorem sandbox_key_created (session_id : List Char) (secret : List UInt8) (image : List (List Char)) :
    sandbox_key (create_environment session_id secret ++ image) = some secret := by
  rw [sandbox_key, environment_value_created, Option.bind_some, signing_key_jwt_key]
  rfl

/-- The address of a container that `create` started, which is issued if it is healthy
and its port bound. -/
theorem issue_vnc_access_created (hsecret : secret ≠ [])
    (henvironment : container.environment = create_environment session_id secret ++ image)
    (hstatus : container.status = "running") (hhealth : container.health = some "healthy") :
    issue_vnc_access encode public_host now ttl jti (some container) =
      (_host_port container.host_ports).map fun host_port =>
        (vnc_url public_host host_port (encode (vnc_claims now ttl jti) secret), now + ttl * 1000000) := by
  have hready : ¬ (container.status ≠ "running" ∨ container.health ≠ some "healthy") := by
    simp [hstatus, hhealth]
  rw [issue_vnc_access, if_neg hready, henvironment, environment_value_created]
  cases hkey : jwt_key secret with
  | nil => exact absurd hkey (jwt_key_ne_nil hsecret)
  | cons c rest =>
    have hsigning : signing_key (c :: rest) = .ok secret := by rw [← hkey, signing_key_jwt_key]
    simp only [hsigning]
    cases _host_port container.host_ports <;> rfl

private theorem TokenChar.ascii {c : Char} (h : TokenChar c) : c.toNat < 128 := by
  rcases h with h | h
  · have hle (bound : UInt32) (hle : c.val ≤ bound) : c.toNat ≤ bound.toNat := hle
    change (decide (c.val ≥ 'A'.val ∧ c.val ≤ 'Z'.val) || (decide (c.val ≥ 'a'.val) && decide (c.val ≤ 'z'.val)) ||
      (decide (c.val ≥ '0'.val) && decide (c.val ≤ '9'.val))) = true at h
    simp only [Bool.or_eq_true, Bool.and_eq_true, decide_eq_true_eq] at h
    rcases h with (⟨-, h⟩ | ⟨-, h⟩) | ⟨-, h⟩
    · exact lt_of_le_of_lt (hle _ h) (by decide)
    · exact lt_of_le_of_lt (hle _ h) (by decide)
    · exact lt_of_le_of_lt (hle _ h) (by decide)
  · simp only [List.mem_cons, List.not_mem_nil, or_false] at h
    rcases h with rfl | rfl | rfl <;> decide

/-- A token stands in a query as it is: its letters, its digits and `-`, `_` and `.` are
never quoted. -/
theorem quote_token (htoken : ∀ c ∈ token, TokenChar c) : form_url.quote (unicode.encode token) = token := by
  induction token with
  | nil => rfl
  | cons c token ih =>
    have hc := htoken c List.mem_cons_self
    have hvalue : (UInt8.ofNat c.toNat).toNat = c.toNat := by
      rw [UInt8.toNat_ofNat', Nat.mod_eq_of_lt (by have := hc.ascii; omega)]
    have hsafe : form_url.safe (UInt8.ofNat c.toNat) = true := by
      rw [form_url.safe, hvalue, Char.ofNat_toNat]
      rcases hc with h | h
      · simp [h]
      · simp only [List.mem_cons, List.not_mem_nil, or_false] at h
        rcases h with rfl | rfl | rfl <;> decide
    rw [unicode.encode_cons, unicode.encodeChar_ascii hc.ascii, List.singleton_append, form_url.quote,
      List.flatMap_cons, form_url.quote_byte, if_pos hsafe, hvalue, Char.ofNat_toNat, ← form_url.quote,
      ih fun d hd => htoken d (List.mem_cons_of_mem _ hd)]
    rfl

/-- The query of a URL is what comes after its first `?`, if no `#` cuts it short. The
value of a name is the first non-empty one. -/
theorem query_value_after {start query : List Char} (name : String) (hstart : '?' ∉ start)
    (hhash : '#' ∉ start ++ '?' :: query) :
    query_value name (start ++ '?' :: query) =
      ((form_url.parse query).find? fun pair => pair.1 = unicode.encode name.toList ∧ pair.2 ≠ []).map
        fun pair => utf8.decode_from none pair.2 := by
  have htake : (start ++ '?' :: query).takeWhile (· ≠ '#') = start ++ '?' :: query :=
    List.takeWhile_eq_self_iff.mpr fun c hc => decide_eq_true fun h => hhash (h ▸ hc)
  have hbefore : ∀ c ∈ start, decide (c ≠ '?') = true := fun c hc => decide_eq_true fun h => hstart (h ▸ hc)
  have hdrop : (start ++ '?' :: query).dropWhile (· ≠ '?') = '?' :: query := by
    rw [List.dropWhile_append_of_pos hbefore]
    simp
  rw [query_value, htake, hdrop]
  rfl

private theorem find_path {path : List Char} (hpath : unicode.encode path ≠ []) :
    (vnc_fields path).find? (fun pair => pair.1 = unicode.encode "path".toList ∧ pair.2 ≠ []) =
      some (unicode.encode "path".toList, unicode.encode path) := by
  rw [vnc_fields, List.map_cons, List.find?_cons_of_neg (by decide), List.map_cons, List.find?_cons_of_neg (by decide),
    List.map_cons, List.find?_cons_of_neg (by decide), List.map_cons, List.find?_cons_of_pos]
  exact decide_eq_true ⟨rfl, hpath⟩

private theorem TokenChar.not_hash {c : Char} (h : TokenChar c) : c ≠ '#' := by
  rintro rfl
  rcases h with h | h <;> exact absurd h (by decide)

private theorem vnc_path_ascii (htoken : ∀ c ∈ token, TokenChar c) : ∀ c ∈ vnc_path token, c.toNat < 128 := by
  intro c hc
  rcases List.mem_append.mp hc with hc | hc
  · exact (by decide : ∀ c ∈ "websockify".toList, c.toNat < 128) c hc
  · rcases List.mem_cons.mp hc with rfl | hc
    · decide
    · rcases List.mem_append.mp hc with hc | hc
      · exact (by decide : ∀ c ∈ "token".toList, c.toNat < 128) c hc
      · rcases List.mem_cons.mp hc with rfl | hc
        · decide
        · exact (htoken c hc).ascii

/-- The path in the query of the URL, as it was before it was quoted: reading undoes the
quoting of its own `?` and `=`. -/
theorem query_value_vnc_url {host_port : Nat} (hhost : '?' ∉ public_host ∧ '#' ∉ public_host)
    (htoken : ∀ c ∈ token, TokenChar c) :
    query_value "path" (vnc_url public_host host_port token) = some (vnc_path token) := by
  have hport : ∀ c ∈ (Nat.repr host_port).toList, c.isDigit = true := by
    intro c hc
    rw [Nat.repr, String.toList_ofList] at hc
    exact Nat.isDigit_of_mem_toDigits (by decide) (by decide) hc
  have hstart {c : Char} (hc : c = '?' ∨ c = '#') : c ∉ vnc_page public_host host_port := by
    refine List.not_mem_append (List.not_mem_append (List.not_mem_append ?_ ?_)
      (List.not_mem_cons_of_ne_of_not_mem ?_ fun h => ?_)) ?_
    · rcases hc with rfl | rfl <;> decide
    · rcases hc with rfl | rfl
      · exact hhost.1
      · exact hhost.2
    · rcases hc with rfl | rfl <;> decide
    · rcases hc with rfl | rfl <;> exact absurd (hport _ h) (by decide)
    · rcases hc with rfl | rfl <;> decide
  have hquery : '#' ∉ vnc_query token := fun h => by
    rcases form_url.mem_urlencode h with h | h <;> exact absurd h (by decide)
  have hhash : '#' ∉ vnc_page public_host host_port ++ '?' :: vnc_query token :=
    List.not_mem_append (hstart (.inr rfl)) (List.not_mem_cons_of_ne_of_not_mem (by decide) hquery)
  have hpath : unicode.encode (vnc_path token) ≠ [] := List.cons_ne_nil _ _
  rw [vnc_url, query_value_after "path" (hstart (.inl rfl)) hhash, vnc_query, form_url.parse_urlencode,
    find_path hpath, Option.map_some, utf8.decode_encode (vnc_path_ascii htoken)]

/-- A token after the `?` of a path is the value of its query, as the sandbox reads it
from the path of its own request. -/
theorem query_value_vnc_path (hne : token ≠ []) (htoken : ∀ c ∈ token, TokenChar c) :
    query_value "token" (vnc_path token) = some token := by
  have hvalue : '#' ∉ '=' :: token :=
    List.not_mem_cons_of_ne_of_not_mem (by decide) fun h => (htoken _ h).not_hash rfl
  have hhash : '#' ∉ "websockify".toList ++ '?' :: ("token".toList ++ '=' :: token) :=
    List.not_mem_append (by decide) (List.not_mem_cons_of_ne_of_not_mem (by decide)
      (List.not_mem_append (by decide) hvalue))
  have hquery : "token".toList ++ '=' :: token =
      form_url.urlencode [(unicode.encode "token".toList, unicode.encode token)] := by
    have hname : form_url.quote (unicode.encode "token".toList) = "token".toList := by decide
    have hfield (name value : List Char) (hname : form_url.quote (unicode.encode name) = name)
        (hvalue : form_url.quote (unicode.encode value) = value) :
        form_url.urlencode [(unicode.encode name, unicode.encode value)] = name ++ '=' :: value := by
      simp [form_url.urlencode, hname, hvalue]
    exact (hfield _ _ hname (quote_token htoken)).symm
  have hencoded : unicode.encode token ≠ [] := fun h => hne (by rw [← quote_token htoken, h]; rfl)
  have hfound : (form_url.parse ("token".toList ++ '=' :: token)).find?
      (fun pair => pair.1 = unicode.encode "token".toList ∧ pair.2 ≠ []) =
        some (unicode.encode "token".toList, unicode.encode token) := by
    rw [hquery, form_url.parse_urlencode, List.find?_cons_of_pos]
    exact decide_eq_true ⟨rfl, hencoded⟩
  have hstart : '?' ∉ "websockify".toList := by decide
  have hread := query_value_after "token" hstart hhash
  rw [hfound, Option.map_some, utf8.decode_encode fun c hc => (htoken c hc).ascii] at hread
  exact hread

/-- A container that `create` started gets an address whenever it is healthy and
its port is bound. The address carries a token which, read from the path of its
query, the container accepts under the key of its own environment, and a
container with another key does not. -/
theorem vnc_access_admits (encode : Claims → List UInt8 → List Char) (decode : List Char → List UInt8 → Option Claims)
    (container : Inspected) (secret public_host jti) (now ttl : Nat) (hsecret : secret.length = 32)
    (henvironment : container.environment = create_environment session_id secret ++ image)
    (hhost : '?' ∉ public_host ∧ '#' ∉ public_host)
    (hne : encode (vnc_claims now ttl jti) secret ≠ [])
    (htoken : ∀ c ∈ encode (vnc_claims now ttl jti) secret, TokenChar c)
    (hdecode : ∀ key, key.length = 32 → decode (encode (vnc_claims now ttl jti) secret) key =
      if key = secret then some (vnc_claims now ttl jti) else none) :
    ((∃ access, issue_vnc_access encode public_host now ttl jti (some container) = .ok access) ↔
      container.status = "running" ∧ container.health = some "healthy" ∧ container.host_ports ≠ []) ∧
    ∀ access, issue_vnc_access encode public_host now ttl jti (some container) = .ok access →
      ∃ path token, query_value "path" access.1 = some path ∧ query_value "token" path = some token ∧
        ∀ other_id other other_image, other.length = 32 →
          (sandbox_key (create_environment other_id other ++ other_image)).bind (decode token) =
            if other = secret then some (vnc_claims now ttl jti) else none := by
  have hsecret' : secret ≠ [] := by
    rintro rfl
    cases hsecret
  by_cases hready : container.status = "running" ∧ container.health = some "healthy"
  · rw [issue_vnc_access_created hsecret' henvironment hready.1 hready.2]
    cases hports : container.host_ports with
    | nil => simp [_host_port, Except.map]
    | cons host_port rest =>
      refine ⟨?_, ?_⟩
      · simp [_host_port, Except.map, hready]
      · rintro access ⟨⟩
        refine ⟨_, _, query_value_vnc_url hhost htoken, query_value_vnc_path hne htoken, ?_⟩
        intro other_id other other_image hother
        rw [sandbox_key_created, Option.bind_some, hdecode other hother]
  · have hraised : issue_vnc_access encode public_host now ttl jti (some container) =
        .error (.RuntimeError "会话桌面尚未就绪。") := by
      rw [issue_vnc_access, if_pos (by tauto)]
    rw [hraised]
    refine ⟨⟨?_, ?_⟩, ?_⟩
    · rintro ⟨access, ⟨⟩⟩
    · rintro ⟨hstatus, hhealth, -⟩
      exact absurd ⟨hstatus, hhealth⟩ hready
    · rintro access ⟨⟩

/-- The address of one session's desktop opens no other one. -/
theorem vnc_access_admits_other : ∃ access path token,
    issue_vnc_access (fun _ key => "header.".toList ++ base64.digits key) "127.0.0.1".toList 7 120 []
      (some ⟨"running", some "healthy", create_environment "10".toList (List.replicate 32 255) ++ ["PATH=/bin".toList],
        [49001]⟩) = .ok access ∧
    query_value "path" access.1 = some path ∧ query_value "token" path = some token ∧
    (sandbox_key (create_environment "11".toList (List.replicate 32 0) ++ [])).bind
      (fun key => if token = "header.".toList ++ base64.digits key then some (vnc_claims 7 120 []) else none) =
        none := by
  let encode : Claims → List UInt8 → List Char := fun _ key => "header.".toList ++ base64.digits key
  let decode : List Char → List UInt8 → Option Claims := fun token key =>
    if token = encode (vnc_claims 7 120 []) key then some (vnc_claims 7 120 []) else none
  have hdecode (secret key : List UInt8) : decode (encode (vnc_claims 7 120 []) secret) key =
      if key = secret then some (vnc_claims 7 120 []) else none := by
    have hiff : encode (vnc_claims 7 120 []) secret = encode (vnc_claims 7 120 []) key ↔ key = secret := by
      rw [List.append_cancel_left_eq, base64.digits_injective.eq_iff, eq_comm]
    simp only [decode, hiff]
  obtain ⟨hissued, hadmits⟩ := vnc_access_admits encode decode
    ⟨"running", some "healthy", create_environment "10".toList (List.replicate 32 255) ++ ["PATH=/bin".toList], [49001]⟩
    (List.replicate 32 255) "127.0.0.1".toList [] 7 120 rfl rfl (by decide) (by decide) (by decide +kernel)
    fun key _ => hdecode _ key
  obtain ⟨access, haccess⟩ := hissued.mpr ⟨rfl, rfl, List.cons_ne_nil _ _⟩
  obtain ⟨path, token, hpath, htoken, hopens⟩ := hadmits access haccess
  refine ⟨access, path, token, haccess, hpath, htoken, ?_⟩
  have hother := hopens "11".toList (List.replicate 32 0) [] rfl
  rwa [if_neg (by decide)] at hother

/-- The address that the provider's model gives a container is this one, with the token
and the port left out: both exist for the same containers and expire at the same time. -/
theorem vnc_access_refines (hsecret : secret ≠ [])
    (henvironment : container.environment = create_environment session_id secret ++ image) (handle : Container) :
    ((issue_vnc_access encode public_host now ttl jti (some container)).toOption.map Prod.snd) =
      (vnc_access handle ⟨container.status, container.health,
        (_environment_value container.environment "VNC_JWT_KEY").map String.ofList,
        container.host_ports.head?⟩ (now + ttl * 1000000)).map VncAccess.expires_at := by
  by_cases hready : container.status = "running" ∧ container.health = some "healthy"
  · have hkey : String.ofList (jwt_key secret) ≠ "" := by
      simpa using jwt_key_ne_nil hsecret
    rw [issue_vnc_access_created hsecret henvironment hready.1 hready.2, henvironment, environment_value_created,
      vnc_access, if_neg (by simp [hready]), if_neg (by simp [truthy, hkey])]
    cases container.host_ports <;> rfl
  · rw [issue_vnc_access, if_pos (by tauto), vnc_access, if_pos (by simp; tauto)]
    rfl

end docker_runtime

end session_manager
