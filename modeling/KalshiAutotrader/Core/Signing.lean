import KalshiAutotrader.Kit.Reading
import KalshiAutotrader.Core.Auth
import Mathlib.Data.List.Infix

/-!
Signing, over the OpenSSL library.

The library is a parameter: it answers each call out of a state of its own, the error
queue included, and any call may fail. What is proved is what the program makes of that.
A signature comes out of one sequence of calls only, the first call that fails ends it and
is asked about, and what was acquired on the way is released exactly once.
-/

namespace KalshiAutotrader.Core

open Kit Reading

/-- A call of the library. Pointers are left to the library's state: there is one of each
kind at a time. -/
inductive SslCall
  | loadProvider (name : Bytes)
  | newMemBuf (pem : Bytes)
  | readPrivateKey
  | freeBio
  | newContext
  | digestSignInit
  | setPssPadding
  | setPssSaltLength (length : ℤ)
  | digestSignUpdate (message : Bytes)
  /-- `EVP_DigestSignFinal` without a buffer. -/
  | signatureLength
  | digestSignFinal
  | encodeBlock (bytes : Bytes)
  /-- `ERR_get_error` and the text of the code. -/
  | getError
  | freeContext
  | freeKey
  deriving DecidableEq

/-- What a call returns: nothing if it fails, else the bytes it writes, if any. -/
abbrev SslLibrary (σ : Type) := SslCall → σ → Option Bytes × σ

structure SignState (σ : Type) where
  library : σ
  /-- `loaded` of `ensure_legacy_provider_loaded`. -/
  loaded : Bool
  /-- `g_last_sign_error`. -/
  lastError : Bytes
  /-- History: the calls made, and what they returned. -/
  calls : List (SslCall × Option Bytes)

abbrev Signing (σ α : Type) := Reading (SignState σ) AuthError α

section Code

variable {σ α : Type} (lib : SslLibrary σ)

def ask (call : SslCall) : Signing σ (Option Bytes) := fun s =>
  (.ok (lib call s.library).1, { s with
    library := (lib call s.library).2
    calls := s.calls ++ [(call, (lib call s.library).1)] })

/-- A call that returns nothing that is looked at. -/
def tell (call : SslCall) : Signing σ Unit := fun s =>
  (.ok (), { s with library := (lib call s.library).2, calls := s.calls ++ [(call, some [])] })

def setLastSignError (text : Bytes) : Signing σ Unit := fun s =>
  (.ok (), { s with lastError := text })

def unknownError : Bytes := ascii "unknown OpenSSL error"

def setLastSignErrorFromOpenssl : Signing σ Unit := do
  match ← ask lib .getError with
  | none => setLastSignError unknownError
  | some text => setLastSignError text

/-- What every check of a call ends in when the call has failed. -/
def failSigning : Signing σ α := do
  setLastSignErrorFromOpenssl lib
  throw .signingFailed

/-- A call that has to succeed. -/
def require (call : SslCall) : Signing σ Bytes := do
  match ← ask lib call with
  | some result => pure result
  | none => failSigning lib

/-- What a smart pointer does at the end of its scope, however it is left. -/
def within (free : SslCall) (body : Signing σ α) : Signing σ α := fun s =>
  ((body.runFrom s).1, ((tell lib free).runFrom (body.runFrom s).2).2)

def ensureLegacyProviderLoaded : Signing σ Unit := fun s =>
  if s.loaded then (.ok (), s)
  else
    let afterDefault := ((tell lib (.loadProvider (ascii "default"))).runFrom s).2
    let afterLegacy := ((tell lib (.loadProvider (ascii "legacy"))).runFrom afterDefault).2
    (.ok (), { afterLegacy with loaded := true })

def opensshMarker : Bytes := ascii "BEGIN OPENSSH PRIVATE KEY"

def isOpensshKey (pem : Bytes) : Bool := decide (opensshMarker <:+: pem)

def opensshError : Bytes :=
  ascii "OpenSSH private key format detected; convert to PEM (PKCS#8) for OpenSSL"

def loadPrivateKey (pem : Bytes) : Signing σ Unit := do
  let _ ← require lib (.newMemBuf pem)
  let pkey ← ask lib .readPrivateKey
  tell lib .freeBio
  match pkey with
  | some _ => pure ()
  | none => failSigning lib

def signRsaPss (message : Bytes) : Signing σ Bytes := do
  let _ ← require lib .newContext
  within lib .freeContext do
    let _ ← require lib .digestSignInit
    let _ ← require lib .setPssPadding
    let _ ← require lib (.setPssSaltLength (-1))
    let _ ← require lib (.digestSignUpdate message)
    let _ ← require lib .signatureLength
    require lib .digestSignFinal

def base64Encode (bytes : Bytes) : Signing σ Bytes := require lib (.encodeBlock bytes)

def signWsMessage (privateKeyPem message : Bytes) : Signing σ Bytes := do
  ensureLegacyProviderLoaded lib
  if isOpensshKey privateKeyPem then
    setLastSignError opensshError
    throw .signingFailed
  else
    loadPrivateKey lib privateKeyPem
    within lib .freeKey do
      let signature ← signRsaPss lib message
      base64Encode lib signature

/-- `last_sign_error`. -/
def SignState.lastSignError (s : SignState σ) : Bytes :=
  if s.lastError = [] then ascii "no error detail" else s.lastError

end Code

variable {σ α : Type} {lib : SslLibrary σ} {s : SignState σ}

/-! ### The calls of a signing -/

def succeeded (answered : List (SslCall × Bytes)) : List (SslCall × Option Bytes) :=
  answered.map fun (call, result) => (call, some result)

/-- The calls between the creation of the context and its end. -/
def pssCalls (message : Bytes) : List SslCall :=
  [.digestSignInit, .setPssPadding, .setPssSaltLength (-1), .digestSignUpdate message,
    .signatureLength, .digestSignFinal]

/-- The calls that the encoding of `raw` comes out of. -/
def signingCalls (pem message raw : Bytes) : List SslCall :=
  [.newMemBuf pem, .readPrivateKey, .freeBio, .newContext] ++ pssCalls message ++
    [.freeContext, .encodeBlock raw, .freeKey]

/-- The calls that load the providers, for the first message only. -/
def providerCalls (s : SignState σ) : List SslCall :=
  if s.loaded then [] else [.loadProvider (ascii "default"), .loadProvider (ascii "legacy")]

/-- An answer the library has for this call. -/
def Gave (lib : SslLibrary σ) (call : SslCall) (result : Bytes) : Prop :=
  ∃ library, (lib call library).1 = some result

/-- The signing has made these calls since the providers were there, all of them have
succeeded, and some have returned this. -/
structure SoFar (start : SignState σ) (calls : List SslCall) (given : List (SslCall × Bytes))
    (s : SignState σ) : Prop where
  loaded : s.loaded = true
  lastError : s.lastError = start.lastError
  calls : ∃ answered, answered.map Prod.fst = providerCalls start ++ calls ∧
    s.calls = start.calls ++ succeeded answered ∧ given ⊆ answered

def SslCall.isFree (call : SslCall) : Bool :=
  call = .freeBio || call = .freeContext || call = .freeKey

/-- A signing gets as far as these calls. -/
def Planned (pem message : Bytes) (calls : List SslCall) : Prop :=
  ∃ raw, calls <+: signingCalls pem message raw

/-- The signing has come to a call that failed, and all calls before it have succeeded. Then
the library was asked about it, and the answer is the error; pointers were freed, and nothing
else was done. -/
structure Explained (lib : SslLibrary σ) (start : SignState σ) (pem message : Bytes)
    (s : SignState σ) : Prop where
  loaded : s.loaded = true
  calls : ∃ before failed answered between after, ∃ library : σ,
    Planned pem message (before ++ [failed]) ∧
    answered.map Prod.fst = providerCalls start ++ before ∧
    s.calls = start.calls ++ (succeeded answered ++ (failed, none) ::
      (succeeded between ++ (.getError, (lib .getError library).1) :: succeeded after)) ∧
    (∀ call ∈ between ++ after, call.1.isFree = true) ∧
    s.lastError = (lib .getError library).1.getD unknownError

/-- How a signing that was not refused outright fails. -/
def Failing (lib : SslLibrary σ) (start : SignState σ) (pem message : Bytes) (e : AuthError)
    (s : SignState σ) : Prop :=
  e = .signingFailed ∧ Explained lib start pem message s

variable {start : SignState σ} {calls : List SslCall} {given : List (SslCall × Bytes)}
  {pem message : Bytes}

/-- One more call. -/
theorem SoFar.snoc (h : SoFar start calls given s) {call : SslCall} {result : Bytes}
    {s' : SignState σ} (hloaded : s'.loaded = s.loaded) (hlast : s'.lastError = s.lastError)
    (hcalls : s'.calls = s.calls ++ [(call, some result)]) :
    SoFar start (calls ++ [call]) ((call, result) :: given) s' where
  loaded := hloaded.trans h.loaded
  lastError := hlast.trans h.lastError
  calls := by
    obtain ⟨answered, hanswered, hbefore, hgiven⟩ := h.calls
    refine ⟨answered ++ [(call, result)], ?_, ?_, ?_⟩
    · rw [List.map_append, hanswered, List.append_assoc]
      rfl
    · rw [hcalls, hbefore, List.append_assoc]
      simp [succeeded]
    · simpa using List.subset_append_of_subset_left _ hgiven

theorem SoFar.forget (h : SoFar start calls given s) {given' : List (SslCall × Bytes)}
    (hgiven : given' ⊆ given) : SoFar start calls given' s where
  loaded := h.loaded
  lastError := h.lastError
  calls := by
    obtain ⟨answered, hanswered, hcalls, hbefore⟩ := h.calls
    exact ⟨answered, hanswered, hcalls, fun _ hcall => hbefore (hgiven hcall)⟩

theorem SoFar.tell (lib : SslLibrary σ) (h : SoFar start calls given s) (call : SslCall) :
    SoFar start (calls ++ [call]) given ((tell lib call).runFrom s).2 := by
  have hsnoc : SoFar start (calls ++ [call]) ((call, []) :: given)
      ((Core.tell lib call).runFrom s).2 := h.snoc rfl rfl rfl
  exact hsnoc.forget (List.subset_cons_self _ _)

theorem Explained.tell (h : Explained lib start pem message s) {call : SslCall}
    (hfree : call.isFree = true) :
    Explained lib start pem message ((tell lib call).runFrom s).2 where
  loaded := h.loaded
  calls := by
    obtain ⟨before, failed, answered, between, after, library, hplan, hanswered, hcalls, hfrees,
      herror⟩ := h.calls
    refine ⟨before, failed, answered, between, after ++ [(call, [])], library, hplan, hanswered,
      ?_, ?_, herror⟩
    · show s.calls ++ [(call, some [])] = _
      rw [hcalls]
      simp [succeeded]
    · rw [← List.append_assoc]
      exact List.forall_mem_append.mpr ⟨hfrees, List.forall_mem_singleton.mpr hfree⟩

theorem runFrom_ask (call : SslCall) (s : SignState σ) :
    (ask lib call).runFrom s = (.ok (lib call s.library).1, { s with
      library := (lib call s.library).2
      calls := s.calls ++ [(call, (lib call s.library).1)] }) := rfl

/-- A failing call is asked about, and the answer is kept. -/
theorem runFrom_failSigning (s : SignState σ) :
    (failSigning lib : Signing σ α).runFrom s = (.error .signingFailed, { s with
      library := (lib .getError s.library).2
      calls := s.calls ++ [(.getError, (lib .getError s.library).1)]
      lastError := (lib .getError s.library).1.getD unknownError }) := by
  rw [failSigning, setLastSignErrorFromOpenssl, bind_assoc, runFrom_bind, runFrom_ask]
  cases hanswer : (lib .getError s.library).1 <;> rfl

/-- A call has failed, and since then pointers were freed. -/
structure FailedAt (start : SignState σ) (pem message : Bytes) (s : SignState σ) : Prop where
  loaded : s.loaded = true
  calls : ∃ before failed answered between, Planned pem message (before ++ [failed]) ∧
    answered.map Prod.fst = providerCalls start ++ before ∧
    s.calls = start.calls ++ (succeeded answered ++ (failed, none) :: succeeded between) ∧
    ∀ call ∈ between, call.1.isFree = true

theorem triple_failSigning (Q : α → SignState σ → Prop) :
    Triple (FailedAt start pem message) (failSigning lib) Q (Failing lib start pem message) := by
  intro s hs
  obtain ⟨before, failed, answered, between, hplan, hanswered, hcalls, hfrees⟩ := hs.calls
  rw [runFrom_failSigning]
  refine ⟨rfl, hs.loaded, before, failed, answered, between, [], s.library, hplan, hanswered, ?_,
    by simpa using hfrees, rfl⟩
  rw [hcalls]
  simp [succeeded]

theorem SoFar.failed (h : SoFar start calls given s) {call : SslCall}
    (hplan : Planned pem message (calls ++ [call])) {s' : SignState σ}
    (hloaded : s'.loaded = s.loaded) (hcalls : s'.calls = s.calls ++ [(call, none)]) :
    FailedAt start pem message s' where
  loaded := hloaded.trans h.loaded
  calls := by
    obtain ⟨answered, hanswered, hbefore, -⟩ := h.calls
    refine ⟨calls, call, answered, [], hplan, hanswered, ?_, by simp⟩
    rw [hcalls, hbefore, List.append_assoc]
    rfl

theorem FailedAt.tell (lib : SslLibrary σ) (h : FailedAt start pem message s) {call : SslCall}
    (hfree : call.isFree = true) : FailedAt start pem message ((tell lib call).runFrom s).2 where
  loaded := h.loaded
  calls := by
    obtain ⟨before, failed, answered, between, hplan, hanswered, hcalls, hfrees⟩ := h.calls
    refine ⟨before, failed, answered, between ++ [(call, [])], hplan, hanswered, ?_, ?_⟩
    · show s.calls ++ [(call, some [])] = _
      rw [hcalls]
      simp [succeeded]
    · exact List.forall_mem_append.mpr ⟨hfrees, List.forall_mem_singleton.mpr hfree⟩

/-- A call that has to succeed goes on, or ends the signing. -/
theorem triple_require {call : SslCall} (hplan : Planned pem message (calls ++ [call])) :
    Triple (SoFar start calls given) (require lib call)
      (fun result => SoFar start (calls ++ [call]) ((call, result) :: given))
      (Failing lib start pem message) := by
  intro s hs
  rw [require, runFrom_bind, runFrom_ask]
  cases hanswer : (lib call s.library).1 with
  | some result => exact hs.snoc rfl rfl rfl
  | none => exact triple_failSigning _ _ (hs.failed hplan rfl rfl)

/-- A call whose result is not looked at any further. -/
theorem triple_require_go {call : SslCall} (hplan : Planned pem message (calls ++ [call])) :
    Triple (SoFar start calls given) (require lib call)
      (fun _ => SoFar start (calls ++ [call]) given) (Failing lib start pem message) :=
  (triple_require hplan).mono fun _ _ h => h.forget (List.subset_cons_self _ _)

theorem runFrom_within (free : SslCall) (body : Signing σ α) (s : SignState σ) :
    (within lib free body).runFrom s =
      ((body.runFrom s).1, ((tell lib free).runFrom (body.runFrom s).2).2) := rfl

/-- The end of a scope is one more call, after a failure too. -/
theorem triple_within {P : SignState σ → Prop} {body : Signing σ α} {free : SslCall}
    {Q R : α → SignState σ → Prop} {E E' : AuthError → SignState σ → Prop}
    (hbody : Triple P body Q E)
    (hleave : ∀ a s, Q a s → R a ((tell lib free).runFrom s).2)
    (hfail : ∀ e s, E e s → E' e ((tell lib free).runFrom s).2) :
    Triple P (within lib free body) R E' := by
  intro s hs
  have h := hbody s hs
  rw [runFrom_within]
  cases hrun : body.runFrom s with
  | mk answer s' =>
      rw [hrun] at h
      cases answer with
      | ok a => exact hleave a s' h
      | error e => exact hfail e s' h

theorem Failing.tell {e : AuthError} (h : Failing lib start pem message e s) {call : SslCall}
    (hfree : call.isFree = true) :
    Failing lib start pem message e ((tell lib call).runFrom s).2 :=
  ⟨h.1, h.2.tell hfree⟩

theorem runFrom_ensureLegacyProviderLoaded (s : SignState σ) :
    (ensureLegacyProviderLoaded lib).runFrom s = if s.loaded then (.ok (), s) else
      let afterDefault := ((tell lib (.loadProvider (ascii "default"))).runFrom s).2
      let afterLegacy := ((tell lib (.loadProvider (ascii "legacy"))).runFrom afterDefault).2
      (.ok (), { afterLegacy with loaded := true }) := rfl

theorem triple_ensureLegacyProviderLoaded (E : AuthError → SignState σ → Prop) :
    Triple (· = start) (ensureLegacyProviderLoaded lib) (fun _ => SoFar start [] []) E := by
  rintro s rfl
  rw [runFrom_ensureLegacyProviderLoaded]
  by_cases hloaded : s.loaded = true
  · rw [if_pos hloaded]
    exact ⟨hloaded, rfl, [], by simp [providerCalls, hloaded], by simp [succeeded], by simp⟩
  · rw [if_neg hloaded]
    refine ⟨rfl, rfl, (providerCalls s).map (·, []), by simp [Function.comp_def], ?_, by simp⟩
    simp only [providerCalls, if_neg hloaded]
    exact List.append_assoc ..

theorem triple_loadPrivateKey : Triple (SoFar start [] []) (loadPrivateKey lib pem)
    (fun _ => SoFar start [.newMemBuf pem, .readPrivateKey, .freeBio] [])
    (Failing lib start pem message) := by
  refine (triple_require_go (by simp [Planned, signingCalls])).bind fun _ s hs => ?_
  rw [runFrom_bind, runFrom_ask]
  -- either way the BIO is freed next, before a failure is asked about
  cases hanswer : (lib .readPrivateKey s.library).1 with
  | some key =>
      have hread : SoFar start ([.newMemBuf pem] ++ [.readPrivateKey]) [(.readPrivateKey, key)]
          { s with
            library := (lib .readPrivateKey s.library).2
            calls := s.calls ++ [(.readPrivateKey, some key)] } := hs.snoc rfl rfl rfl
      exact (hread.tell lib .freeBio).forget (List.nil_subset _)
  | none =>
      have hplan : Planned pem message ([.newMemBuf pem] ++ [.readPrivateKey]) := by
        simp [Planned, signingCalls]
      have hfailed : FailedAt start pem message { s with
          library := (lib .readPrivateKey s.library).2
          calls := s.calls ++ [(.readPrivateKey, none)] } := hs.failed hplan rfl rfl
      exact triple_failSigning _ _ (hfailed.tell lib (by decide))

theorem triple_signRsaPss :
    Triple (SoFar start [.newMemBuf pem, .readPrivateKey, .freeBio] []) (signRsaPss lib message)
      (fun raw => SoFar start ([.newMemBuf pem, .readPrivateKey, .freeBio, .newContext] ++
        pssCalls message ++ [.freeContext]) [(.digestSignFinal, raw)])
      (Failing lib start pem message) := by
  refine (triple_require_go (by simp [Planned, signingCalls])).bind fun _ => ?_
  refine triple_within (E := Failing lib start pem message)
    (Q := fun raw => SoFar start ([.newMemBuf pem, .readPrivateKey, .freeBio, .newContext] ++
      pssCalls message) [(.digestSignFinal, raw)]) ?_
    (fun _ s hs => hs.tell lib .freeContext) fun _ _ hs => hs.tell (by decide)
  refine (triple_require_go (by simp [Planned, signingCalls, pssCalls])).bind fun _ => ?_
  refine (triple_require_go (by simp [Planned, signingCalls, pssCalls])).bind fun _ => ?_
  refine (triple_require_go (by simp [Planned, signingCalls, pssCalls])).bind fun _ => ?_
  refine (triple_require_go (by simp [Planned, signingCalls, pssCalls])).bind fun _ => ?_
  refine (triple_require_go (by simp [Planned, signingCalls, pssCalls])).bind fun _ => ?_
  exact triple_require (by simp [Planned, signingCalls, pssCalls])

/-- The signature is the encoding of what the library has signed, and comes out of these
calls. -/
def Signed (start : SignState σ) (pem message signature : Bytes) (s : SignState σ) : Prop :=
  ∃ raw, SoFar start (signingCalls pem message raw)
    [(.encodeBlock raw, signature), (.digestSignFinal, raw)] s

/-- A key is refused for its format before the library sees it. -/
structure Refused (start s : SignState σ) : Prop where
  loaded : s.loaded = true
  calls : ∃ answered, answered.map Prod.fst = providerCalls start ∧
    s.calls = start.calls ++ succeeded answered
  lastError : s.lastError = opensshError

/-- What `sign_ws_message` does with a key that is not refused. -/
theorem triple_signKey : Triple (SoFar start [] [])
    (do loadPrivateKey lib pem
        within lib .freeKey do
          let signature ← signRsaPss lib message
          base64Encode lib signature)
    (Signed start pem message) (Failing lib start pem message) := by
  refine triple_loadPrivateKey.bind fun _ => ?_
  refine triple_within (E := Failing lib start pem message)
    (Q := fun signature s => ∃ raw, SoFar start ([.newMemBuf pem, .readPrivateKey,
        .freeBio, .newContext] ++ pssCalls message ++ [.freeContext] ++ [.encodeBlock raw])
      [(.encodeBlock raw, signature), (.digestSignFinal, raw)] s)
    (triple_signRsaPss.bind fun raw => ?_) (fun signature s hs => ?_)
    fun _ _ hs => hs.tell (by decide)
  · have hplan : Planned pem message ([.newMemBuf pem, .readPrivateKey, .freeBio, .newContext] ++
        pssCalls message ++ [.freeContext] ++ [.encodeBlock raw]) :=
      ⟨raw, [.freeKey], by simp [signingCalls]⟩
    exact (triple_require hplan).mono fun _ _ h => ⟨raw, h⟩
  · obtain ⟨raw, hs⟩ := hs
    exact ⟨raw, by simpa [signingCalls] using hs.tell lib .freeKey⟩

/-- How a message is signed from a state, or not. -/
theorem triple_signWsMessage (lib : SslLibrary σ) (start : SignState σ) (pem message : Bytes) :
    Triple (· = start) (signWsMessage lib pem message)
      (fun signature s => isOpensshKey pem = false ∧ Signed start pem message signature s)
      (fun e s => e = .signingFailed ∧
        if isOpensshKey pem = true then Refused start s
        else Explained lib start pem message s) := by
  refine (triple_ensureLegacyProviderLoaded _).bind fun _ => ?_
  by_cases hkey : isOpensshKey pem = true
  · intro s hs
    rw [if_pos hkey]
    simp only [hkey, if_true]
    obtain ⟨answered, hanswered, hcalls, -⟩ := hs.calls
    exact ⟨rfl, hs.loaded, ⟨answered, by simpa using hanswered, hcalls⟩, rfl⟩
  · simp only [if_neg hkey]
    exact triple_signKey.mono fun _ _ hs => ⟨by simpa using hkey, hs⟩

/-- The signings of the program, one after the other. -/
def signAll (lib : SslLibrary σ) (s : SignState σ) (requests : List (Bytes × Bytes)) :
    SignState σ :=
  requests.foldl (fun s request => ((signWsMessage lib request.1 request.2).runFrom s).2) s

/-- Where the program starts. -/
def SignState.initial (library : σ) : SignState σ := ⟨library, false, [], []⟩

theorem loaded_signWsMessage (s : SignState σ) (pem message : Bytes) :
    ((signWsMessage lib pem message).runFrom s).2.loaded = true := by
  have houtcome := triple_signWsMessage lib s pem message s rfl
  cases hrun : (signWsMessage lib pem message).runFrom s with
  | mk answer s' =>
      rw [hrun] at houtcome
      cases answer with
      | ok signature =>
          obtain ⟨-, raw, hs⟩ := houtcome
          exact hs.loaded
      | error e =>
          obtain ⟨-, hreason⟩ := houtcome
          split at hreason
          · exact hreason.loaded
          · exact hreason.loaded

theorem loaded_signAll (s : SignState σ) (requests : List (Bytes × Bytes)) :
    (signAll lib s requests).loaded = (s.loaded || !requests.isEmpty) := by
  induction requests generalizing s with
  | nil => exact (Bool.or_false _).symm
  | cons request requests ih =>
      refine (ih _).trans ?_
      rw [loaded_signWsMessage]
      simp

/-- However the library behaves, and whatever has been signed before. The providers are
loaded for the first message and never again. A signature comes out of one sequence of
calls only, and a signing that fails has stopped at the first call of it that did, which is
what `last_sign_error` is about. -/
theorem signing_outcome (lib : SslLibrary σ) (library : σ) (requests : List (Bytes × Bytes))
    (pem message : Bytes) :
    let start := signAll lib (.initial library) requests
    start.loaded = !requests.isEmpty ∧
    Triple (· = start) (signWsMessage lib pem message)
      (fun signature s => isOpensshKey pem = false ∧ Signed start pem message signature s)
      (fun e s => e = .signingFailed ∧
        if isOpensshKey pem = true then Refused start s
        else Explained lib start pem message s) :=
  ⟨loaded_signAll _ requests, triple_signWsMessage lib _ pem message⟩

/-- Where nothing fails there is a signature, and the last call frees the key. -/
example :
    let lib : SslLibrary ℕ := fun _ n => (some (ascii "x"), n + 1)
    let run := (signWsMessage lib (ascii "pem") (ascii "m")).runFrom (.initial 0)
    run.1 = .ok (ascii "x") ∧ run.2.calls.getLast? = some (.freeKey, some []) := by
  decide +kernel

/-! ### What is acquired

The library hands out a BIO, a key and a context. The history of the calls says which of
them are held, unless one is used or released that is not. -/

structure Held where
  bio : Bool
  key : Bool
  context : Bool
  deriving DecidableEq

def Held.none : Held := ⟨false, false, false⟩

/-- What is held after a call. A call that needs a pointer has to have it, and none is
acquired a second time. -/
def Held.after (held : Held) : SslCall × Option Bytes → Option Held
  | (.newMemBuf _, result) =>
      if held.bio then Option.none else some { held with bio := result.isSome }
  | (.readPrivateKey, result) =>
      if held.bio && !held.key then some { held with key := result.isSome } else Option.none
  | (.freeBio, _) => if held.bio then some { held with bio := false } else Option.none
  | (.newContext, result) =>
      if held.context then Option.none else some { held with context := result.isSome }
  | (.digestSignInit, _) => if held.context && held.key then some held else Option.none
  | (.setPssPadding, _) | (.setPssSaltLength _, _) | (.digestSignUpdate _, _)
  | (.signatureLength, _) | (.digestSignFinal, _) =>
      if held.context then some held else Option.none
  | (.freeContext, _) => if held.context then some { held with context := false } else Option.none
  | (.freeKey, _) => if held.key then some { held with key := false } else Option.none
  | (.loadProvider _, _) | (.encodeBlock _, _) | (.getError, _) => some held

/-- What is held after a history of calls, if no pointer has been misused in it. -/
def Held.afterAll (calls : List (SslCall × Option Bytes)) : Option Held :=
  calls.foldlM Held.after .none

/-- Nothing has been misused, and this is held. -/
def Holds (held : Held) (s : SignState σ) : Prop := Held.afterAll s.calls = some held

variable {held held' : Held}

theorem Holds.snoc (h : Holds held s) (held' : Held) (call : SslCall × Option Bytes)
    (hafter : held.after call = some held') {s' : SignState σ}
    (hcalls : s'.calls = s.calls ++ [call]) : Holds held' s' := by
  rw [Holds, Held.afterAll] at h ⊢
  rw [hcalls, List.foldlM_append, h]
  simpa using hafter

theorem holds_failSigning (Q : α → SignState σ → Prop) :
    Triple (Holds held) (failSigning lib) Q fun _ => Holds held := by
  intro s hs
  rw [runFrom_failSigning]
  exact hs.snoc held (.getError, _) rfl rfl

/-- A call that has to succeed and fails acquires nothing. -/
theorem holds_require {call : SslCall} (held' : Held)
    (hok : ∀ result, held.after (call, some result) = some held')
    (hfail : held.after (call, none) = some held) :
    Triple (Holds held) (require lib call) (fun _ => Holds held') fun _ => Holds held := by
  intro s hs
  rw [require, runFrom_bind, runFrom_ask]
  cases hanswer : (lib call s.library).1 with
  | some result => exact hs.snoc held' _ (hok result) rfl
  | none => exact holds_failSigning _ _ (hs.snoc held _ hfail rfl)

theorem Holds.tell (h : Holds held s) (call : SslCall)
    (hafter : held.after (call, some []) = some held') :
    Holds held' ((tell lib call).runFrom s).2 :=
  h.snoc held' _ hafter rfl

/-- A call in the middle of a signing, on what is held already. -/
theorem holds_use {call : SslCall} (hafter : ∀ result, held.after (call, result) = some held) :
    Triple (Holds held) (require lib call) (fun _ => Holds held) fun _ => Holds held :=
  holds_require held (fun result => hafter (some result)) (hafter none)

theorem holds_loadPrivateKey (pem : Bytes) : Triple (Holds .none) (loadPrivateKey lib pem)
    (fun _ => Holds ⟨false, true, false⟩) fun _ => Holds .none := by
  refine (holds_require ⟨true, false, false⟩ (fun _ => rfl) rfl).bind fun _ s hs => ?_
  rw [runFrom_bind, runFrom_ask]
  -- either way the BIO is freed next
  cases hanswer : (lib .readPrivateKey s.library).1 with
  | some key =>
      exact (hs.snoc ⟨true, true, false⟩ (.readPrivateKey, some key) rfl rfl).tell .freeBio rfl
  | none =>
      exact holds_failSigning _ _
        ((hs.snoc ⟨true, false, false⟩ (.readPrivateKey, none) rfl rfl).tell .freeBio rfl)

theorem holds_signRsaPss (message : Bytes) :
    Triple (Holds ⟨false, true, false⟩) (signRsaPss lib message)
      (fun _ => Holds ⟨false, true, false⟩) fun _ => Holds ⟨false, true, false⟩ := by
  refine (holds_require ⟨false, true, true⟩ (fun _ => rfl) rfl).bind fun _ => ?_
  refine triple_within (E := fun _ => Holds ⟨false, true, true⟩)
    (Q := fun _ => Holds ⟨false, true, true⟩) ?_ (fun _ _ hs => hs.tell _ rfl)
    fun _ _ hs => hs.tell _ rfl
  refine (holds_use fun _ => rfl).bind fun _ => ?_
  refine (holds_use fun _ => rfl).bind fun _ => ?_
  refine (holds_use fun _ => rfl).bind fun _ => ?_
  refine (holds_use fun _ => rfl).bind fun _ => ?_
  refine (holds_use fun _ => rfl).bind fun _ => ?_
  exact holds_use fun _ => rfl

theorem holds_ensureLegacyProviderLoaded (E : AuthError → SignState σ → Prop) :
    Triple (Holds held) (ensureLegacyProviderLoaded lib) (fun _ => Holds held) E := by
  intro s hs
  rw [runFrom_ensureLegacyProviderLoaded]
  by_cases hloaded : s.loaded = true
  · rw [if_pos hloaded]
    exact hs
  · rw [if_neg hloaded]
    have hdefault : Holds held ((tell lib (.loadProvider (ascii "default"))).runFrom s).2 :=
      hs.tell _ rfl
    have hlegacy : Holds held ((tell lib (.loadProvider (ascii "legacy"))).runFrom _).2 :=
      hdefault.tell _ rfl
    exact hlegacy

/-- A signing gives back all it has acquired, whether it succeeds or fails. -/
theorem holds_signWsMessage (pem message : Bytes) : Triple (Holds .none)
    (signWsMessage lib pem message) (fun _ => Holds .none) fun _ => Holds .none := by
  refine (holds_ensureLegacyProviderLoaded _).bind fun _ => ?_
  by_cases hkey : isOpensshKey pem = true
  · rw [if_pos hkey]
    exact fun s hs => hs
  · rw [if_neg hkey]
    refine (holds_loadPrivateKey pem).bind fun _ => ?_
    refine triple_within (E := fun _ => Holds ⟨false, true, false⟩)
      (Q := fun _ => Holds ⟨false, true, false⟩) ((holds_signRsaPss message).bind fun raw => ?_)
      (fun _ _ hs => hs.tell _ rfl) fun _ _ hs => hs.tell _ rfl
    exact holds_use fun _ => rfl

theorem holds_signAll {s : SignState σ} (hs : Holds .none s) (requests : List (Bytes × Bytes)) :
    Holds .none (signAll lib s requests) := by
  induction requests generalizing s with
  | nil => exact hs
  | cons request requests ih => exact ih ((holds_signWsMessage request.1 request.2).state hs)

/-- However the library behaves, and whatever fails: every pointer is used only while it is
held, released exactly once, and none is left over. -/
theorem pointers_released (lib : SslLibrary σ) (library : σ) (requests : List (Bytes × Bytes)) :
    Held.afterAll (signAll lib (.initial library) requests).calls = some .none := by
  have hstart : Holds .none (SignState.initial library) := rfl
  exact holds_signAll hstart requests

/-! ### The signer -/

/-- The signer over a library. A moment finds the library in some state. -/
def sslSigner (lib : SslLibrary σ) (states : Moment → SignState σ) : Signer :=
  fun moment privateKeyPem message =>
    match (signWsMessage lib privateKeyPem message).runFrom (states moment) with
    | (.ok signature, _) => .ok signature
    | (.error e, s) => .error { error := e, lastSignError := s.lastSignError }

/-- What there is to say about a signing that has failed: that the key has the wrong format,
or what the library says. -/
def SignReason (lib : SslLibrary σ) (privateKeyPem text : Bytes) : Prop :=
  if isOpensshKey privateKeyPem = true then text = opensshError
  else text = unknownError ∨ Gave lib .getError text

theorem lastSignError_of_eq {text : Bytes} (h : s.lastError = text) (hne : text ≠ []) :
    s.lastSignError = text := by
  rw [SignState.lastSignError, h, if_neg hne]

theorem Refused.reason (h : Refused start s) : s.lastSignError = opensshError :=
  lastSignError_of_eq h.lastError (by decide +kernel)

theorem Explained.reason (htexts : ∀ text, Gave lib .getError text → text ≠ [])
    (h : Explained lib start pem message s) :
    s.lastSignError = unknownError ∨ Gave lib .getError s.lastSignError := by
  obtain ⟨_, _, _, _, _, library, -, -, -, -, hlast⟩ := h.calls
  cases hanswer : (lib .getError library).1 with
  | none =>
      rw [hanswer, Option.getD_none] at hlast
      exact .inl (lastSignError_of_eq hlast (by decide +kernel))
  | some text =>
      rw [hanswer, Option.getD_some] at hlast
      have hgave : Gave lib .getError text := ⟨library, hanswer⟩
      rw [lastSignError_of_eq hlast (htexts text hgave)]
      exact .inr hgave

/-- A failure has a reason, and the reason is that of this call. -/
theorem reason_of_sslSigner {states : Moment → SignState σ} {moment : Moment}
    {failure : SignFailure} (htexts : ∀ text, Gave lib .getError text → text ≠ [])
    (h : sslSigner lib states moment pem message = .error failure) :
    failure.error = .signingFailed ∧ SignReason lib pem failure.lastSignError := by
  have houtcome := triple_signWsMessage lib (states moment) pem message (states moment) rfl
  unfold sslSigner at h
  cases hrun : (signWsMessage lib pem message).runFrom (states moment) with
  | mk answer s =>
      rw [hrun] at h houtcome
      cases answer with
      | ok signature => cases h
      | error e =>
          obtain rfl := Except.error.inj h
          obtain ⟨rfl, hreason⟩ := houtcome
          refine ⟨rfl, ?_⟩
          unfold SignReason
          split at hreason
          · next hkey => rw [if_pos hkey]; exact hreason.reason
          · next hkey => rw [if_neg hkey]; exact hreason.reason htexts

end KalshiAutotrader.Core
