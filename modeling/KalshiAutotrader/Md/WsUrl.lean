import KalshiAutotrader.Kit.Bytes

/-!
Websocket URLs.

A URL is cut at its first slash, and what stands before the slash at its first
colon. The port and the target have defaults.
-/

namespace KalshiAutotrader.Md

open Kit

inductive WsError
  | invalidUrl
  | resolveFailed
  | connectFailed
  | sslHandshakeFailed
  | wsHandshakeFailed
  | readFailed
  | writeFailed
  deriving DecidableEq

/-- `static_cast<std::int64_t>` of an error. -/
def WsError.toInt64 : WsError → Int64
  | .invalidUrl => 0
  | .resolveFailed => 1
  | .connectFailed => 2
  | .sslHandshakeFailed => 3
  | .wsHandshakeFailed => 4
  | .readFailed => 5
  | .writeFailed => 6

structure WsUrl where
  host : Bytes
  port : Bytes
  target : Bytes
  deriving DecidableEq

def wssPrefix : Bytes := ascii "wss://"

def startsWith (s start : Bytes) : Bool :=
  start.length ≤ s.length && s.take start.length = start

/-- The text before the first `c`, and the text from it on if there is one. -/
def cutAt (c : UInt8) (s : Bytes) : Bytes × Option Bytes :=
  match s.findIdx? (· == c) with
  | none => (s, none)
  | some i => (s.take i, some (s.drop i))

def parseWsUrl (url : Bytes) : Except WsError WsUrl :=
  if !startsWith url wssPrefix then .error .invalidUrl
  else
    let rest := url.drop wssPrefix.length
    let hostPort := (cutAt slash rest).1
    let target := (cutAt slash rest).2.getD (ascii "/")
    if hostPort = [] then .error .invalidUrl
    else
      let host := (cutAt colon hostPort).1
      let port := ((cutAt colon hostPort).2.map List.tail).getD (ascii "443")
      if host = [] || port = [] then .error .invalidUrl
      else .ok { host := host, port := port, target := target }

/-! ### Cutting a text -/

theorem cutAt_of_notMem {c : UInt8} {s : Bytes} (h : c ∉ s) : cutAt c s = (s, none) := by
  have hnone : s.findIdx? (· == c) = none := by
    rw [List.findIdx?_eq_none_iff]
    intro b hb
    simpa using fun heq : b = c => h (heq ▸ hb)
  rw [cutAt, hnone]

/-- The cut is at the first `c`. -/
theorem cutAt_append {c : UInt8} {a b : Bytes} (h : c ∉ a) :
    cutAt c (a ++ c :: b) = (a, some (c :: b)) := by
  have hfound : (a ++ c :: b).findIdx? (· == c) = some a.length := by
    have hnone : a.findIdx? (· == c) = none := by
      rw [List.findIdx?_eq_none_iff]
      intro d hd
      simpa using fun heq : d = c => h (heq ▸ hd)
    simp [List.findIdx?_append, hnone, List.findIdx?_cons]
  simp [cutAt, hfound]

/-- A text without a `c` is not cut, and every other one is `a ++ c :: b`. -/
theorem cutAt_cases (c : UInt8) (s : Bytes) :
    (c ∉ s ∧ cutAt c s = (s, none)) ∨
      ∃ a b, c ∉ a ∧ s = a ++ c :: b ∧ cutAt c s = (a, some (c :: b)) := by
  by_cases hmem : c ∈ s
  · obtain ⟨a, b, rfl, ha⟩ := List.eq_append_cons_of_mem hmem
    exact .inr ⟨a, b, ha, rfl, cutAt_append ha⟩
  · exact .inl ⟨hmem, cutAt_of_notMem hmem⟩

theorem startsWith_iff {s start : Bytes} :
    startsWith s start = true ↔ ∃ rest, s = start ++ rest := by
  constructor
  · intro h
    obtain ⟨-, htake⟩ : _ ∧ s.take start.length = start := by simpa [startsWith] using h
    have hsplit := List.take_append_drop start.length s
    exact ⟨s.drop start.length, by rw [htake] at hsplit; exact hsplit.symm⟩
  · rintro ⟨rest, rfl⟩
    simp [startsWith]

/-- The target of a URL is what follows the first slash after its scheme, with the
slash, and a slash when there is none. -/
theorem target_of_parseWsUrl {url : Bytes} {parts : WsUrl} (h : parseWsUrl url = .ok parts) :
    ∃ rest, url = wssPrefix ++ rest ∧ parts.target = (cutAt slash rest).2.getD (ascii "/") := by
  unfold parseWsUrl at h
  split at h
  · cases h
  next hstart =>
  obtain ⟨rest, rfl⟩ := startsWith_iff.mp (by simpa using hstart)
  refine ⟨rest, rfl, ?_⟩
  simp only [List.drop_left] at h
  split at h
  · cases h
  · split at h
    · cases h
    · obtain rfl := Except.ok.inj h
      rfl

/-- A URL has a target other than the default one when it ends in it, after an
authority without a slash. -/
theorem target_eq_iff {url : Bytes} {parts : WsUrl} (h : parseWsUrl url = .ok parts)
    {path : Bytes} (hpath : path ≠ []) :
    parts.target = slash :: path ↔
      ∃ authority, slash ∉ authority ∧ url = wssPrefix ++ authority ++ slash :: path := by
  obtain ⟨rest, rfl, htarget⟩ := target_of_parseWsUrl h
  rw [htarget]
  constructor
  · intro heq
    rcases cutAt_cases slash rest with ⟨-, hcut⟩ | ⟨a, b, ha, hrest, hcut⟩
    · rw [hcut] at heq
      exact absurd (List.cons.inj heq).2.symm hpath
    · rw [hcut] at heq
      exact ⟨a, ha, by rw [hrest, ← heq]; simp⟩
  · rintro ⟨authority, hslash, heq⟩
    rw [List.append_assoc, List.append_cancel_left_eq] at heq
    rw [heq, cutAt_append hslash]
    rfl

/-! ### The URLs that are accepted -/

/-- What stands between the scheme and the target: a host without a colon, and after
a colon the port, which is left out when it is the default one. -/
def IsAuthority (authority host port : Bytes) : Prop :=
  colon ∉ host ∧ (authority = host ∧ port = ascii "443" ∨ authority = host ++ colon :: port)

/-- What follows the authority: the target, or nothing for the default one. -/
def IsTarget (rest target : Bytes) : Prop :=
  rest = [] ∧ target = ascii "/" ∨ (∃ path, rest = slash :: path) ∧ target = rest

/-- The URL is the scheme, an authority without a slash and a target, of which these
are the parts. -/
def IsWsUrl (url host port target : Bytes) : Prop :=
  ∃ authority rest, url = wssPrefix ++ authority ++ rest ∧ slash ∉ authority ∧
    IsTarget rest target ∧ IsAuthority authority host port ∧ host ≠ [] ∧ port ≠ []

theorem isAuthority_iff {authority host port : Bytes} :
    IsAuthority authority host port ↔
      (cutAt colon authority).1 = host ∧
        ((cutAt colon authority).2.map List.tail).getD (ascii "443") = port := by
  constructor
  · rintro ⟨hhost, ⟨rfl, rfl⟩ | rfl⟩
    · rw [cutAt_of_notMem hhost]
      exact ⟨rfl, rfl⟩
    · rw [cutAt_append hhost]
      exact ⟨rfl, rfl⟩
  · rcases cutAt_cases colon authority with ⟨hnone, hcut⟩ | ⟨a, b, ha, hsplit, hcut⟩
    · rw [hcut]
      rintro ⟨rfl, rfl⟩
      exact ⟨hnone, .inl ⟨rfl, rfl⟩⟩
    · rw [hcut]
      rintro ⟨rfl, rfl⟩
      exact ⟨ha, .inr hsplit⟩

/-- An authority without a slash and its target are the two sides of the first slash. -/
theorem isTarget_iff {text authority target : Bytes} :
    (∃ rest, text = authority ++ rest ∧ slash ∉ authority ∧ IsTarget rest target) ↔
      (cutAt slash text).1 = authority ∧ (cutAt slash text).2.getD (ascii "/") = target := by
  constructor
  · rintro ⟨rest, rfl, hslash, ⟨rfl, rfl⟩ | ⟨⟨path, rfl⟩, rfl⟩⟩
    · rw [List.append_nil, cutAt_of_notMem hslash]
      exact ⟨rfl, rfl⟩
    · rw [cutAt_append hslash]
      exact ⟨rfl, rfl⟩
  · rcases cutAt_cases slash text with ⟨hnone, hcut⟩ | ⟨a, b, ha, hsplit, hcut⟩
    · rw [hcut]
      rintro ⟨rfl, rfl⟩
      exact ⟨[], (List.append_nil _).symm, hnone, .inl ⟨rfl, rfl⟩⟩
    · rw [hcut]
      rintro ⟨rfl, rfl⟩
      exact ⟨slash :: b, hsplit, ha, .inr ⟨⟨b, rfl⟩, rfl⟩⟩

theorem isWsUrl_wss_iff {rest host port target : Bytes} :
    IsWsUrl (wssPrefix ++ rest) host port target ↔
      (cutAt slash rest).2.getD (ascii "/") = target ∧
        IsAuthority (cutAt slash rest).1 host port ∧ host ≠ [] ∧ port ≠ [] := by
  constructor
  · rintro ⟨authority, tail, heq, hslash, htarget, hparts⟩
    rw [List.append_assoc, List.append_cancel_left_eq] at heq
    obtain ⟨rfl, ht⟩ := isTarget_iff.mp ⟨tail, heq, hslash, htarget⟩
    exact ⟨ht, hparts⟩
  · rintro ⟨htarget, hparts⟩
    obtain ⟨tail, heq, hslash, ht⟩ := isTarget_iff.mpr ⟨rfl, htarget⟩
    refine ⟨_, tail, ?_, hslash, ht, hparts⟩
    rw [List.append_assoc, ← heq]

/-- A URL is read into its parts, or refused when it has none. -/
theorem parseWsUrl_cases (url : Bytes) :
    (∃ parts, parseWsUrl url = .ok parts ∧
        ∀ host port target, IsWsUrl url host port target ↔ parts = ⟨host, port, target⟩) ∨
      parseWsUrl url = .error .invalidUrl ∧ ∀ host port target, ¬IsWsUrl url host port target := by
  unfold parseWsUrl
  split
  next hstart =>
    refine .inr ⟨rfl, ?_⟩
    rintro host port target ⟨authority, rest, rfl, -⟩
    rw [List.append_assoc, startsWith_iff.mpr ⟨_, rfl⟩] at hstart
    cases hstart
  next hstart =>
  obtain ⟨rest, rfl⟩ := startsWith_iff.mp (by simpa using hstart)
  simp only [List.drop_left, isWsUrl_wss_iff, isAuthority_iff]
  split
  next hempty =>
    -- an empty authority has an empty host
    refine .inr ⟨rfl, ?_⟩
    rintro host port target ⟨-, ⟨hhost, -⟩, hne, -⟩
    rw [hempty] at hhost
    exact hne hhost.symm
  next =>
    split
    next hempty =>
      refine .inr ⟨rfl, ?_⟩
      rintro host port target ⟨-, ⟨rfl, rfl⟩, hhost, hport⟩
      simp [hhost, hport] at hempty
    next hfull =>
      refine .inl ⟨_, rfl, fun host port target => ?_⟩
      simp only [Bool.or_eq_true, decide_eq_true_eq, not_or] at hfull
      rw [WsUrl.mk.injEq]
      constructor
      · rintro ⟨htarget, ⟨hhost, hport⟩, -⟩
        exact ⟨hhost, hport, htarget⟩
      · rintro ⟨rfl, rfl, rfl⟩
        exact ⟨rfl, ⟨rfl, rfl⟩, hfull⟩

/-- A URL spelled with a target and a port that may both be left out. -/
def assemble (host : Bytes) (port target : Option Bytes) : Bytes :=
  wssPrefix ++ host ++ ((port.map (colon :: ·)).getD []) ++ target.getD []

theorem assemble_of_isWsUrl {url host port target : Bytes} (h : IsWsUrl url host port target) :
    ∃ port' target', url = assemble host port' target' ∧ port'.getD (ascii "443") = port ∧
      target'.getD (ascii "/") = target := by
  obtain ⟨authority, rest, rfl, -, htarget, ⟨-, hauthority⟩, -⟩ := h
  obtain ⟨port', hport', rfl⟩ : ∃ port' : Option Bytes, port'.getD (ascii "443") = port ∧
      authority = host ++ (port'.map (colon :: ·)).getD [] := by
    rcases hauthority with ⟨rfl, rfl⟩ | rfl
    · exact ⟨none, rfl, (List.append_nil _).symm⟩
    · exact ⟨some port, rfl, rfl⟩
  obtain ⟨target', htarget', rfl⟩ : ∃ target' : Option Bytes, target'.getD (ascii "/") = target ∧
      rest = target'.getD [] := by
    rcases htarget with ⟨rfl, rfl⟩ | ⟨-, rfl⟩
    · exact ⟨none, rfl, rfl⟩
    · exact ⟨some target, rfl, rfl⟩
  refine ⟨port', target', ?_, hport', htarget'⟩
  simp [assemble]

/-- The host, the port and the target of a URL are read exactly from the URLs that are
spelled with them, and every other text is refused. The parts give the URL back up to
a default port and a default target. -/
theorem parseWsUrl_iff (url : Bytes) :
    (∀ host port target,
      parseWsUrl url = .ok ⟨host, port, target⟩ ↔ IsWsUrl url host port target) ∧
    ((¬∃ host port target, IsWsUrl url host port target) →
      parseWsUrl url = .error .invalidUrl) ∧
    (∀ host port target, parseWsUrl url = .ok ⟨host, port, target⟩ →
      (∃ path, target = slash :: path) ∧
      ∃ port' target', url = assemble host port' target' ∧ port'.getD (ascii "443") = port ∧
        target'.getD (ascii "/") = target) := by
  have hiff : ∀ host port target,
      parseWsUrl url = .ok ⟨host, port, target⟩ ↔ IsWsUrl url host port target := by
    intro host port target
    rcases parseWsUrl_cases url with ⟨parts, hok, hparts⟩ | ⟨herror, hnone⟩
    · rw [hok, hparts, Except.ok.injEq]
    · rw [herror]
      exact ⟨fun h => (by cases h), fun h => absurd h (hnone host port target)⟩
  refine ⟨hiff, ?_, ?_⟩
  · intro hnone
    rcases parseWsUrl_cases url with ⟨parts, -, hparts⟩ | ⟨herror, -⟩
    · exact absurd ⟨_, _, _, (hparts parts.host parts.port parts.target).mpr rfl⟩ hnone
    · exact herror
  · intro host port target hok
    have hurl := (hiff host port target).mp hok
    refine ⟨?_, assemble_of_isWsUrl hurl⟩
    obtain ⟨_, _, _, _, ⟨_, rfl⟩ | ⟨hpath, rfl⟩, _⟩ := hurl
    · exact ⟨[], rfl⟩
    · exact hpath

end KalshiAutotrader.Md
