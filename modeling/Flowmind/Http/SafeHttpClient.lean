import Flowmind.Http.IpRange
import Flowmind.Js.Fields
import Flowmind.Program.Prog

/-!
# Requests to other hosts

`SafeHttpClient` sends the requests of workflows to hosts that their authors name.  It resolves the
host itself, refuses addresses that are not to be reached, and gives the HTTP library an address that
it has checked as the answer of every lookup.  Redirects are followed by the client, each as a request
of its own.

* `SafeHttpClient.request` — the client, over the answers of the resolver and of the hosts.
* `Vetted` — what holds of a request when it is about to be sent; the client keeps to it from one
  redirect to the next (`OnTheWay`).
* `requests_stay_on_vetted_addresses` — whatever they answer: every connection is to an address of a
  resolution of the host without blocked addresses, there are four requests at most, none from HTTPS
  to HTTP, and the headers of the caller are not sent once a redirect has changed the host.

URLs are parsed by a library (`HttpLib`), about which nothing is assumed.  Where a request connects is
a matter of the HTTP library too: it asks the lookup for the address of a name, but not for that of a
host that is an address already.
-/

namespace Flowmind.Http

open Program

/-! ## Requests and answers -/

/-- The parts of a URL that are read. -/
structure Url where
  protocol : String
  username : String
  password : String
  hostname : String
  /-- The host with the port. -/
  host : String
  searchParams : List (String × String)
  /-- What else there is: the path and the fragment. -/
  rest : String
deriving DecidableEq, Repr

/-- An object with text values. -/
abbrev Headers : Type := List (String × String)

structure RequestInit where
  method : String
  headers : Headers
  body : Option String
deriving DecidableEq, Repr

/-- A response; the names of its headers are in lower case. -/
structure Response where
  status : ℕ
  headers : Headers
  /-- The bytes of the body as they arrive. -/
  byteLength : ℕ
  text : String
deriving DecidableEq, Repr

/-- `response.headers.get(name)`. -/
def Response.header (response : Response) (name : String) : Option String :=
  (response.headers.find? fun entry => decide (entry.1 = name)).map (·.2)

/-- What the platform provides. -/
structure HttpLib where
  js : JsLib
  isIP : String → ℕ
  /-- `new URL(text, base)`. -/
  newURL : String → Option Url → Option Url
  /-- `url.toString()`. -/
  toText : Url → String
  /-- `JSON.parse`. -/
  parseJson : String → Option Json
  /-- The base64 form of the UTF-8 bytes of a text. -/
  base64 : String → String

inductive HttpAuthScheme where
  | apiKey | bearerToken | basicAuth | customHeaders
deriving DecidableEq, Repr

inductive HttpAuthLocation where
  | header | query
deriving DecidableEq, Repr

structure ResolvedHttpConnection where
  authScheme : HttpAuthScheme
  baseUrl : Option String
  authLocation : Option HttpAuthLocation
  authName : Option String
  username : Option String
  secretValue : Option String
  secretHeaders : Option Headers
  additionalHeaders : Headers
deriving DecidableEq, Repr

/-- What a step that sends a request asks for. -/
inductive HttpStatement where
  | resolveHttp (organizationId connectionId : String)
  | resolveHost (hostname : String)
  /-- A request; `connect.lookup` answers the address, whatever host it is asked for. -/
  | fetch (url : Url) (init : RequestInit) (lookup : String)

def HttpAnswer : HttpStatement → Type
  | .resolveHttp .. => Except String ResolvedHttpConnection
  | .resolveHost _ => Except String (List String)
  | .fetch .. => Except String Response

/-- A program over these statements; its failures are messages. -/
abbrev Outbound (α : Type) : Type := Prog HttpStatement HttpAnswer String α

namespace Outbound

/-- The addresses of a host. -/
def resolveHost (hostname : String) : Outbound (List String) :=
  .ask (.resolveHost hostname) fun (answer : Except String (List String)) => Prog.ofExcept answer

def fetch (url : Url) (init : RequestInit) (lookup : String) : Outbound Response :=
  .ask (.fetch url init lookup) fun (answer : Except String Response) => Prog.ofExcept answer

def resolveHttp (organizationId connectionId : String) : Outbound ResolvedHttpConnection :=
  .ask (.resolveHttp organizationId connectionId)
    fun (answer : Except String ResolvedHttpConnection) => Prog.ofExcept answer

end Outbound

open Outbound

/-! ## The client -/

def allowedMethods : List String := ["GET", "POST", "PUT", "PATCH", "DELETE", "HEAD"]

/-- The names of headers that only the platform sets. -/
def isBlockedHeader (name : String) : Bool :=
  let name := (jsToLowerCase name).toList
  (["host", "content-length", "transfer-encoding", "connection", "keep-alive", "te", "trailer",
    "upgrade", "authorization", "cookie", "set-cookie"].any fun blocked =>
      decide (name = blocked.toList)) ||
    "proxy-".toList.isPrefixOf name || "x-forwarded-".toList.isPrefixOf name

structure SafeHttpRequest where
  url : String
  method : Option String
  headers : Option Headers
  body : Option Json
  maxResponseBytes : Option ℕ
  allowedRestrictedHeaders : List String

structure SafeHttpResponse where
  status : ℕ
  ok : Bool
  body : Json
  headers : Headers

/-- One header of the caller. -/
def checkHeader (allowed : List String) (entry : String × String) : Except String Unit :=
  if jsToLowerCase entry.1 ∉ allowed ∧ isBlockedHeader entry.1 = true then
    .error ("Header " ++ entry.1 ++ " is not allowed")
  else if 4096 < utf16Length entry.2 then .error ("Header " ++ entry.1 ++ " is too large")
  else .ok ()

def sanitizeHeaders (headers : Headers) (allowedRestrictedHeaders : List String) :
    Except String Headers :=
  if 32 < headers.length then .error "Too many headers"
  else
    (headers.forM (checkHeader (allowedRestrictedHeaders.map jsToLowerCase))).map fun _ => headers

def isRedirect (status : ℕ) : Bool := decide (300 ≤ status) && decide (status < 400)

variable (lib : HttpLib)

def safeJson (text : String) : Json := (lib.parseJson text).getD (.str text)

variable (url : Url)

/-- The name of a host without brackets. -/
def Url.bareHostname : String :=
  let text := url.hostname.toList
  let text := if text.head? = some '[' then text.drop 1 else text
  String.ofList (if text.getLast? = some ']' then text.dropLast else text)

@[irreducible]
def isInternalHost (hostname : String) : Bool :=
  decide (jsToLowerCase hostname = "localhost") ||
    decide (jsToLowerCase hostname = "metadata.google.internal")

def Url.isHttp : Bool :=
  decide (url.protocol = "http:") || decide (url.protocol = "https:")

def Url.hasCredentials : Bool :=
  decide (url.username ≠ "") || decide (url.password ≠ "")

def assertSafeUrl : Outbound (List String) :=
  if url.isHttp = false then .fail "Only HTTP and HTTPS URLs are allowed"
  else if url.hasCredentials then .fail "URL credentials are not allowed"
  else if isInternalHost url.bareHostname then .fail "Internal host is not allowed"
  else do
    let addresses ← resolveHost url.bareHostname
    if addresses.isEmpty || addresses.any (isBlockedIp lib.js lib.isIP) then
      .fail "Private, reserved or metadata IP is not allowed"
    else pure addresses

/-- The declared length of a response is more than the limit. -/
def declaresMore (response : Response) (maxBytes : ℕ) : Bool :=
  match response.header "content-length" with
  | none => false
  | some length =>
    (lib.js.stringToNumber length).any fun declared => decide ((maxBytes : ℚ) < declared)

/-- A response object cannot be made with these statuses. -/
def isBodiless (status : ℕ) : Bool :=
  decide (status < 200) || decide (599 < status) || decide (status ∈ [204, 205, 304])

/-- The request with a lookup that answers the address, whatever the resolver says by then. -/
def pinnedFetch (init : RequestInit) (address : String) (maxBytes : ℕ) : Outbound Response :=
  if lib.isIP address = 0 then .fail "Resolved address is invalid"
  else do
    let response ← fetch url init address
    if declaresMore lib response maxBytes then .fail "HTTP response is too large"
    else if maxBytes < response.byteLength then .fail "HTTP response is too large"
    else if isBodiless response.status then .fail "Invalid response status code"
    else pure response

/-- The headers that are sent. -/
def sentHeaders (headers : Headers) : Headers :=
  spread [("content-type", "application/json")] headers

namespace SafeHttpClient

/-- The method in upper case. -/
def methodOf (input : SafeHttpRequest) : String :=
  String.ofList ((input.method.getD "GET").toList.map Char.toUpper)

def requestInit (lib : HttpLib) (input : SafeHttpRequest) (headers : Headers) : RequestInit where
  method := methodOf input
  headers := sentHeaders headers
  body :=
    if methodOf input = "GET" ∨ methodOf input = "HEAD" then none
    else input.body.map (Json.stringify lib.js)

/-- What is made of a response that is no redirect. -/
def finish (lib : HttpLib) (maxResponseBytes : ℕ) (response : Response) :
    Outbound SafeHttpResponse :=
  if declaresMore lib response maxResponseBytes then .fail "HTTP response is too large"
  else if maxResponseBytes < response.text.utf8ByteSize then .fail "HTTP response is too large"
  else pure
    { status := response.status
      ok := decide (200 ≤ response.status) && decide (response.status < 300)
      body := safeJson lib response.text
      headers := response.headers }

/-- `requestWithRedirects`, with the number of requests that are left: four less the redirects. -/
def requestWithRedirects (lib : HttpLib) (input : SafeHttpRequest) :
    ℕ → Url → Headers → Outbound SafeHttpResponse
  | 0, _, _ => .fail "Too many redirects"
  | left + 1, url, headers =>
    if methodOf input ∉ allowedMethods then
      .fail ("HTTP method " ++ methodOf input ++ " is not allowed")
    else do
      let maxResponseBytes := input.maxResponseBytes.getD 1048576
      let addresses ← assertSafeUrl lib url
      match addresses with
      | [] => .fail "TypeError"
      | address :: _ => do
        let init := requestInit lib input headers
        let response ← pinnedFetch lib url init address maxResponseBytes
        if isRedirect response.status then
          match (response.header "location").filter (· ≠ "") with
          | none => .fail "Redirect response is missing Location header"
          | some location =>
            match lib.newURL location (some url) with
            | none => .fail "Invalid URL"
            | some nextUrl => do
              let _ ← assertSafeUrl lib nextUrl
              if url.protocol = "https:" ∧ nextUrl.protocol = "http:" then
                .fail "Redirect from HTTPS to HTTP is not allowed"
              else
                requestWithRedirects lib input left nextUrl
                  (if nextUrl.host = url.host then headers else [])
        else finish lib maxResponseBytes response

def request (lib : HttpLib) (input : SafeHttpRequest) : Outbound SafeHttpResponse :=
  match lib.newURL input.url none with
  | none => .fail "Invalid URL"
  | some url => do
    let headers ← Prog.ofExcept
      (sanitizeHeaders (input.headers.getD []) input.allowedRestrictedHeaders)
    requestWithRedirects lib input 4 url headers

end SafeHttpClient

/-! ## What is sent -/

/-- What a program has done so far. -/
abbrev HttpLog : Type := List (Sigma HttpAnswer)

/-- The request that was sent, if one was. -/
def sentRequest : Sigma HttpAnswer → Option (Url × RequestInit)
  | ⟨.fetch url init _, _⟩ => some (url, init)
  | ⟨.resolveHttp .., _⟩ | ⟨.resolveHost _, _⟩ => none

/-- The requests that were sent, in order. -/
def sent (log : HttpLog) : List (Url × RequestInit) := log.filterMap sentRequest

/-- The URLs of the requests. -/
def fetched (log : HttpLog) : List Url := (sent log).map Prod.fst

/-- A redirect has led to another host. -/
def HostChanged (urls : List Url) : Prop := ∃ url ∈ urls, ∃ other ∈ urls, url.host ≠ other.host

/-- A response has redirected to the URL. -/
def Redirected (log : HttpLog) (url : Url) : Prop :=
  ∃ source init lookup response location, ⟨.fetch source init lookup, .ok response⟩ ∈ log ∧
    response.header "location" = some location ∧ lib.newURL location (some source) = some url

lemma Redirected.mono {lib : HttpLib} {log log' : HttpLog} {url : Url} (hsub : log ⊆ log')
    (h : Redirected lib log url) : Redirected lib log' url := by
  obtain ⟨source, init, lookup, response, location, hmem, hlocation⟩ := h
  exact ⟨source, init, lookup, response, location, hsub hmem, hlocation⟩

/-- A request that may be sent to an address after what was done so far; `input` is what the caller
asked for. -/
structure Vetted (lib : HttpLib) (input : SafeHttpRequest) (log : HttpLog) (url : Url)
    (init : RequestInit) (address : String) : Prop where
  address : ∃ addresses, ⟨.resolveHost url.bareHostname, .ok addresses⟩ ∈ log ∧
    address ∈ addresses ∧ ∀ other ∈ addresses, isBlockedIp lib.js lib.isIP other = false
  few : (fetched log).length < 4
  secure : ∀ last ∈ (fetched log).getLast?, ¬ (last.protocol = "https:" ∧ url.protocol = "http:")
  headers : HostChanged (fetched log ++ [url]) → init.headers = sentHeaders []
  /-- The first request goes to the URL of the caller, with the headers of the caller. -/
  first : sent log = [] →
    lib.newURL input.url none = some url ∧ init.headers = sentHeaders (input.headers.getD [])
  /-- Headers that are sent again go to the same host. -/
  again : init.headers = sentHeaders [] ∨
    ∀ earlier ∈ sent log, earlier.1.host = url.host ∧ earlier.2.headers = init.headers
  /-- The others go where the responses redirect to. -/
  later : sent log ≠ [] → Redirected lib log url

/-- Only such requests are sent. -/
def vetting (input : SafeHttpRequest) : Protocol HttpStatement HttpAnswer HttpLog :=
  .logging fun log statement =>
    match statement with
    | .fetch url init lookup => Vetted lib input log url init lookup
    | .resolveHost _ => True
    | .resolveHttp .. => False

section Vetting

variable {lib : HttpLib} {input : SafeHttpRequest} {log : HttpLog}

/-- A URL that is safe has been resolved to addresses that are not blocked. -/
lemma meets_assertSafeUrl (lib : HttpLib) (input : SafeHttpRequest) (log : HttpLog) (url : Url) :
    Meets (vetting lib input)
      (fun log' addresses => sent log' = sent log ∧ log ⊆ log' ∧
        ⟨.resolveHost url.bareHostname, .ok addresses⟩ ∈ log' ∧
        ∀ address ∈ addresses, isBlockedIp lib.js lib.isIP address = false)
      (fun _ _ => True) (assertSafeUrl lib url) log := by
  rw [assertSafeUrl]
  split_ifs
  · trivial
  · trivial
  · trivial
  · refine ⟨trivial, fun (answer : Except String (List String)) _ => ?_⟩
    cases answer with
    | error message => trivial
    | ok addresses =>
      change Meets _ _ _ (if _ then _ else _) _
      split_ifs with hblocked
      · trivial
      · refine ⟨?_, List.subset_append_left _ _, ?_, fun address hmem => ?_⟩
        · simp [vetting, Protocol.logging, sent, sentRequest]
        · simp [vetting, Protocol.logging]
        · simp only [Bool.or_eq_true, List.any_eq_true, not_or, not_exists, not_and,
            Bool.not_eq_true] at hblocked
          exact hblocked.2 address hmem

/-- A request on a pinned connection. -/
lemma meets_pinnedFetch {url : Url} {init : RequestInit} {address : String} (maxBytes : ℕ)
    (h : Vetted lib input log url init address) :
    Meets (vetting lib input)
      (fun log' response => sent log' = sent log ++ [(url, init)] ∧
        ⟨.fetch url init address, .ok response⟩ ∈ log')
      (fun _ _ => True) (pinnedFetch lib url init address maxBytes) log := by
  rw [pinnedFetch]
  split_ifs
  · trivial
  · refine ⟨h, fun (answer : Except String Response) _ => ?_⟩
    cases answer with
    | error message => trivial
    | ok response =>
      change Meets _ _ _ (if _ then _ else _) _
      split_ifs
      · trivial
      · trivial
      · trivial
      · constructor <;> simp [vetting, Protocol.logging, sent, sentRequest]

/-- Where the client is when it is about to send a request. -/
structure OnTheWay (lib : HttpLib) (input : SafeHttpRequest) (log : HttpLog) (left : ℕ)
    (url : Url) (headers : Headers) : Prop where
  few : (sent log).length + left ≤ 4
  secure : ∀ last ∈ (fetched log).getLast?, ¬ (last.protocol = "https:" ∧ url.protocol = "http:")
  first : sent log = [] →
    lib.newURL input.url none = some url ∧ headers = input.headers.getD []
  /-- All requests went to the host with these headers, or the headers are gone. -/
  headers : (∀ earlier ∈ sent log, earlier.1.host = url.host ∧
    earlier.2.headers = sentHeaders headers) ∨ headers = []
  later : sent log ≠ [] → Redirected lib log url

namespace OnTheWay

variable {left : ℕ} {url nextUrl : Url} {headers : Headers}

/-- Once a redirect has led to another host the headers are gone. -/
lemma headers_of_hostChanged (h : OnTheWay lib input log left url headers)
    (hchanged : HostChanged (fetched log ++ [url])) : headers = [] := by
  rcases h.headers with hhosts | hnone
  · have hall : ∀ other ∈ fetched log ++ [url], other.host = url.host := by
      intro other hmem
      rw [List.mem_append, List.mem_singleton] at hmem
      rcases hmem with hmem | rfl
      · obtain ⟨earlier, hearlier, rfl⟩ := List.mem_map.mp hmem
        exact (hhosts earlier hearlier).1
      · rfl
    obtain ⟨first, hfirst, second, hsecond, hne⟩ := hchanged
    exact absurd ((hall first hfirst).trans (hall second hsecond).symm) hne
  · exact hnone

/-- The request may be sent to an address that is not blocked. -/
lemma vetted (h : OnTheWay lib input log (left + 1) url headers) {init : RequestInit}
    (hinit : init.headers = sentHeaders headers) {address : String} {others : List String}
    (hresolved : ⟨.resolveHost url.bareHostname, .ok (address :: others)⟩ ∈ log)
    (hallowed : ∀ other ∈ address :: others, isBlockedIp lib.js lib.isIP other = false) :
    Vetted lib input log url init address where
  address := ⟨_, hresolved, by simp, hallowed⟩
  few := by
    have := h.few
    rw [fetched, List.length_map]
    omega
  secure := h.secure
  headers hchanged := by rw [hinit, h.headers_of_hostChanged hchanged]
  first hnil := ⟨(h.first hnil).1, by rw [hinit, (h.first hnil).2]⟩
  again := by
    rcases h.headers with hhosts | hnone
    · exact .inr (hinit ▸ hhosts)
    · exact .inl (hnone ▸ hinit)
  later := h.later

/-- No request is sent. -/
lemma of_sent {log' : HttpLog} (h : OnTheWay lib input log left url headers)
    (hlog : sent log' = sent log) (hsub : log ⊆ log') : OnTheWay lib input log' left url headers := by
  obtain ⟨hfew, hsecure, hfirst, hheaders, hlater⟩ := h
  rw [← hlog] at hfew hfirst hheaders hlater
  rw [fetched, ← hlog] at hsecure
  exact ⟨hfew, hsecure, hfirst, hheaders, fun hsent => (hlater hsent).mono hsub⟩

/-- The next request. -/
lemma next {log' : HttpLog} {init : RequestInit}
    (h : OnTheWay lib input log (left + 1) url headers) (hinit : init.headers = sentHeaders headers)
    (hlog : sent log' = sent log ++ [(url, init)])
    (hsecure : ¬ (url.protocol = "https:" ∧ nextUrl.protocol = "http:"))
    (hredirected : Redirected lib log' nextUrl) :
    OnTheWay lib input log' left nextUrl (if nextUrl.host = url.host then headers else []) where
  few := by
    have := h.few
    rw [hlog, List.length_append, List.length_singleton]
    omega
  secure last hlast := by
    rw [fetched, hlog, List.map_append, List.map_singleton, List.getLast?_concat,
      Option.mem_some_iff] at hlast
    exact hlast ▸ hsecure
  first hnil := by simp [hlog] at hnil
  headers := by
    split_ifs with hsame
    · rcases h.headers with hhosts | hnone
      · refine .inl fun earlier hmem => ?_
        rw [hlog, List.mem_append, List.mem_singleton] at hmem
        rcases hmem with hmem | rfl
        · exact ⟨(hhosts earlier hmem).1.trans hsame.symm, (hhosts earlier hmem).2⟩
        · exact ⟨hsame.symm, hinit⟩
      · exact .inr hnone
    · exact .inr rfl
  later _ := hredirected

end OnTheWay

/-- The client sends only requests that are vetted. -/
lemma meets_requestWithRedirects (lib : HttpLib) (input : SafeHttpRequest) (left : ℕ) :
    ∀ (log : HttpLog) (url : Url) (headers : Headers), OnTheWay lib input log left url headers →
      Meets (vetting lib input) (fun _ _ => True) (fun _ _ => True)
        (SafeHttpClient.requestWithRedirects lib input left url headers) log := by
  induction left with
  | zero => exact fun _ _ _ _ => trivial
  | succ left ih =>
    intro log url headers hway
    simp only [SafeHttpClient.requestWithRedirects]
    split_ifs
    · refine (meets_assertSafeUrl lib input log url).bind fun log₁ addresses hsafe => ?_
      obtain ⟨hlog₁, hsub₁, hresolved, hallowed⟩ := hsafe
      have hway₁ := hway.of_sent hlog₁ hsub₁
      cases addresses with
      | nil => trivial
      | cons address others =>
        have hvetted : Vetted lib input log₁ url
            (SafeHttpClient.requestInit lib input headers) address :=
          hway₁.vetted rfl hresolved hallowed
        refine (meets_pinnedFetch _ hvetted).bind fun log₂ response hfetch => ?_
        obtain ⟨hlog₂, hresponse⟩ := hfetch
        split_ifs
        · split
          case h_1 => trivial
          case h_2 location hlocation =>
            cases hnext : lib.newURL location (some url) with
            | none => trivial
            | some nextUrl =>
              have hredirected : Redirected lib log₂ nextUrl :=
                ⟨url, _, address, response, location, hresponse,
                  (Option.filter_eq_some_iff.mp hlocation).1, hnext⟩
              refine (meets_assertSafeUrl lib input log₂ nextUrl).bind fun log₃ _ hsafe => ?_
              by_cases hsecure : url.protocol = "https:" ∧ nextUrl.protocol = "http:"
              · rw [if_pos hsecure]
                trivial
              · rw [if_neg hsecure]
                exact ih log₃ nextUrl _ (hway₁.next rfl (hsafe.1.trans hlog₂) hsecure
                  (hredirected.mono hsafe.2.1))
        · rw [SafeHttpClient.finish]
          split_ifs <;> trivial
    · trivial

/-- The headers of the caller are not changed. -/
lemma sanitizeHeaders_eq {headers headers' : Headers} {allowed : List String}
    (h : sanitizeHeaders headers allowed = .ok headers') : headers' = headers := by
  rw [sanitizeHeaders] at h
  split_ifs at h
  obtain ⟨_, -, heq⟩ := exists_of_map_eq_ok h
  exact heq.symm

/-- From the first request on. -/
lemma meets_request (lib : HttpLib) (input : SafeHttpRequest) (hlog : sent log = []) :
    Meets (vetting lib input) (fun _ _ => True) (fun _ _ => True)
      (SafeHttpClient.request lib input) log := by
  rw [SafeHttpClient.request]
  cases hurl : lib.newURL input.url none with
  | none => trivial
  | some url =>
    cases hheaders : sanitizeHeaders (input.headers.getD []) input.allowedRestrictedHeaders with
    | error message => trivial
    | ok headers =>
      refine meets_requestWithRedirects lib input 4 log url headers ?_
      constructor <;> simp [fetched, hlog, hurl, sanitizeHeaders_eq hheaders]

/-- The resolver answers an address with itself. -/
def AnswersLiteral (lib : HttpLib) : Sigma HttpAnswer → Prop
  | ⟨.resolveHost hostname, .ok addresses⟩ => lib.isIP hostname ≠ 0 → addresses = [hostname]
  | _ => True

instance : DecidablePred (AnswersLiteral lib)
  | ⟨.resolveHost _, .ok _⟩ => by unfold AnswersLiteral; infer_instance
  | ⟨.resolveHost _, .error _⟩ | ⟨.fetch .., _⟩ | ⟨.resolveHttp .., _⟩ => .isTrue trivial

/-- The address of a host that is an address has been checked as well. -/
lemma Vetted.of_literal {url : Url} {init : RequestInit} {lookup : String}
    (h : Vetted lib input log url init lookup) (hliteral : lib.isIP url.bareHostname ≠ 0)
    (hresolver : ∀ entry ∈ log, AnswersLiteral lib entry) :
    Vetted lib input log url init url.bareHostname := by
  obtain ⟨addresses, hresolved, -, hallowed⟩ := h.address
  have hself : addresses = [url.bareHostname] := hresolver _ hresolved hliteral
  exact { h with address := ⟨addresses, hresolved, by simp [hself], hallowed⟩ }

/-- **Requests stay on vetted addresses.**  For every request of a caller, whatever the resolver and
the hosts answer, where `connects` says where the HTTP library connects: to the address that its
lookup answers if the host is a name, to the host itself if that is an address.  When the client is
about to send a request,

* it is on a connection to an address of a resolution of the host in which no address was blocked;
* it is the fourth one at most;
* it does not go from HTTPS to HTTP;
* it has none of the headers of the caller if a redirect has led to another host before;

and four requests are sent at most. -/
theorem requests_stay_on_vetted_addresses (lib : HttpLib) (input : SafeHttpRequest)
    (connects : Url → String → String)
    (hname : ∀ url lookup, lib.isIP url.bareHostname = 0 → connects url lookup = lookup)
    (hliteral : ∀ url lookup, lib.isIP url.bareHostname ≠ 0 →
      connects url lookup = url.bareHostname) :
    (∀ log url init lookup k,
      Reaches (SafeHttpClient.request lib input) log (.ask (.fetch url init lookup) k) →
      (∀ entry ∈ log, AnswersLiteral lib entry) →
      Vetted lib input log url init (connects url lookup)) ∧
    ∀ log q, Reaches (SafeHttpClient.request lib input) log q → (fetched log).length ≤ 4 := by
  have hvetted : ∀ log url init lookup k,
      Reaches (SafeHttpClient.request lib input) log (.ask (.fetch url init lookup) k) →
      Vetted lib input log url init lookup := by
    intro log url init lookup k hreach
    have hstart := meets_request lib input (show sent [] = [] from rfl)
    have hmeets := hstart.reaches hreach fun _ _ => trivial
    rw [vetting, Protocol.after_logging] at hmeets
    exact hmeets.1
  constructor
  · intro log url init lookup k hreach hresolver
    have hlookup := hvetted log url init lookup k hreach
    by_cases hhost : lib.isIP url.bareHostname = 0
    · rwa [hname url lookup hhost]
    · rw [hliteral url lookup hhost]
      exact hlookup.of_literal hhost hresolver
  · intro log q hreach
    induction hreach with
    | nil => simp [fetched, sent]
    | @snoc log statement k before answer ih =>
      rw [fetched, sent, List.filterMap_append, List.map_append, List.length_append]
      cases statement with
      | fetch url init lookup =>
        have hfew : (fetched log).length < 4 := (hvetted log url init lookup k before).few
        exact hfew
      | resolveHttp | resolveHost => exact ih

end Vetting

/-! ## A redirect -/

def trialUrl (host : String) : Url := ⟨"https:", "", "", host, host, [], "/"⟩

/-- The numbers that are written with digits only. -/
def trialJs : JsLib where
  numberToString q := toString q.num
  stringToNumber text := some (text.toList.foldl (fun acc c => 10 * acc + (c.toNat - '0'.toNat)) 0)
  dateParse _ := none

/-- URLs are written as the names of their hosts. -/
def trialLib : HttpLib where
  js := trialJs
  isIP text := if text = "93.184.216.34" ∨ text = "93.184.216.35" then 4 else 0
  newURL text _ := some (trialUrl text)
  toText url := url.host
  parseJson _ := none
  base64 text := text

/-- The resolver knows one address; the host redirects to another one, which does not answer. -/
def trialAnswer (_ : Unit) : (statement : HttpStatement) → Option (HttpAnswer statement × Unit)
  | .resolveHost host =>
    some (.ok [if host = "first" then "93.184.216.34" else host], ())
  | .fetch url _ _ =>
    if url.host = "first" then some (.ok ⟨302, [("location", "93.184.216.35")], 0, ""⟩, ()) else none
  | .resolveHttp .. => none

def trialRequest : SafeHttpRequest := ⟨"first", none, some [("x-token", "secret")], none, none, []⟩

/-- A lookup is made for names only. -/
def trialConnects (lookup : String) : String :=
  if trialLib.isIP url.bareHostname = 0 then lookup else url.bareHostname

/-- The request that a program is about to send. -/
def nextFetch {α : Type} : Outbound α → Option (Url × RequestInit × String)
  | .ask (.fetch url init lookup) _ => some (url, init, lookup)
  | _ => none

lemma exists_of_nextFetch {α : Type} {q : Outbound α} {url : Url} {init : RequestInit}
    {lookup : String} (h : nextFetch q = some (url, init, lookup)) :
    ∃ k, q = .ask (.fetch url init lookup) k := by
  cases q with
  | ret | fail => cases h
  | ask statement k =>
    cases statement with
    | fetch url' init' lookup' =>
      cases h
      exact ⟨k, rfl⟩
    | resolveHttp | resolveHost => cases h

/-- A host redirects to an address, which gets none of the headers. -/
theorem requests_stay_on_vetted_addresses_of_redirect :
    ∃ log k, Reaches (SafeHttpClient.request trialLib trialRequest) log
        (.ask (.fetch (trialUrl "93.184.216.35")
          ⟨"GET", [("content-type", "application/json")], none⟩ "93.184.216.35") k) ∧
      fetched log = [trialUrl "first"] ∧
      Vetted trialLib trialRequest log (trialUrl "93.184.216.35")
        ⟨"GET", [("content-type", "application/json")], none⟩ "93.184.216.35" := by
  have hreach := Prog.reaches_follow trialAnswer 5 () (SafeHttpClient.request trialLib trialRequest)
  have hnext : nextFetch
      ((SafeHttpClient.request trialLib trialRequest).follow trialAnswer 5 ()).2 =
        some (trialUrl "93.184.216.35", ⟨"GET", [("content-type", "application/json")], none⟩,
          "93.184.216.35") := by decide +kernel
  obtain ⟨k, hk⟩ := exists_of_nextFetch hnext
  rw [hk] at hreach
  refine ⟨_, k, hreach, by decide +kernel, ?_⟩
  exact (requests_stay_on_vetted_addresses trialLib trialRequest trialConnects
    (fun _ _ hname => if_pos hname) (fun _ _ hliteral => if_neg hliteral)).1 _ _ _ _ _ hreach (by decide +kernel)

end Flowmind.Http
