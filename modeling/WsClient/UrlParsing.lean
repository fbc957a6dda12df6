import WsClient.Connection

/-!
# The URL of a client

The constructor of a client tries four `sscanf` patterns in turn. Each of them stops at its first
mismatch, ignores what follows, and may have written the host, the port or the path before. The
port that remains decides whether a connection is attempted.

## Main definitions

* `UrlFields`, `parseAttempts`: the variables of the constructor, and its chain of patterns.
* `connectionAttempt`: the host, port and path of `Wsocket::create` and of the request.
* `WellFormedUrl`: the four forms of a URL.
* `NoHost`, `ZeroPort`: the URLs without an attempt.

## Main results

* `parseAttempts_eq`: the chain reads what `parseUrl` reads, from any initial variables.
* `ofUrl_eq`: the constructor attempts this connection.
* `url_parsing`: exactly which URLs are accepted for what they say.
-/

namespace WsClient

/-! ### The patterns -/

/-- The variables of the constructor that `sscanf` writes. -/
structure UrlFields where
  host : Bytes
  port : ℤ
  path : Bytes

namespace UrlFields

/-- A conversion to `host`. -/
@[simps] def setHost (f : UrlFields) (host : Bytes) : UrlFields := { f with host := host }

/-- A conversion to `&port`, or an assignment. -/
@[simps] def setPort (f : UrlFields) (port : ℤ) : UrlFields := { f with port := port }

/-- A conversion to `path`; `path[0] = '\0'` is the empty string. -/
@[simps] def setPath (f : UrlFields) (path : Bytes) : UrlFields := { f with path := path }

end UrlFields

/-- The character set `[^:/]`. -/
def isHostChar (c : UInt8) : Bool := c != 58 && c != 47

/-- `ws://%[^:/]:%d/%s`. -/
def hostPortPath : List (Scan.Directive UrlFields) :=
  [.literal (ascii "ws://"), .set isHostChar .setHost, .literal [58], .int .setPort,
    .literal [47], .word .setPath]

/-- `ws://%[^:/]/%s`. -/
def hostPath : List (Scan.Directive UrlFields) :=
  [.literal (ascii "ws://"), .set isHostChar .setHost, .literal [47], .word .setPath]

/-- `ws://%[^:/]:%d`. -/
def hostPort : List (Scan.Directive UrlFields) :=
  [.literal (ascii "ws://"), .set isHostChar .setHost, .literal [58], .int .setPort]

/-- `ws://%[^:/]`. -/
def hostOnly : List (Scan.Directive UrlFields) :=
  [.literal (ascii "ws://"), .set isHostChar .setHost]

/-- The chain of patterns. -/
def parseAttempts (f : UrlFields) (url : Bytes) : UrlFields :=
  let first := Scan.sscanf hostPortPath url f
  if first.2 = 3 then first.1
  else
    let second := Scan.sscanf hostPath url first.1
    if second.2 = 2 then second.1.setPort 80
    else
      let third := Scan.sscanf hostPort url second.1
      if third.2 = 2 then third.1.setPath []
      else
        let fourth := Scan.sscanf hostOnly url third.1
        if fourth.2 = 1 then (fourth.1.setPort 80).setPath [] else fourth.1

/-- The host, port and path with which the constructor calls `Wsocket::create` and writes its
request, if it does. The variables are those before the first pattern, with the port zero. -/
def connectionAttempt (f : UrlFields) (url origin : Bytes) : Option (Bytes × ℤ × Bytes) :=
  if url.length ≥ 128 then none
  else if origin.length ≥ 200 then none
  else
    let f := parseAttempts (f.setPort 0) url
    if f.port ≠ 0 then some (f.host, f.port, f.path) else none

/-- Text that begins with a colon does not begin with a slash. -/
theorem literal_slash_of_colon {s t : Bytes} (h : Scan.literal [58] s = some t) :
    Scan.literal [47] s = none := by
  rw [Scan.literal_eq_some.mp h]
  rfl

/-- What the chain leaves behind, from variables with the port zero. -/
theorem parseAttempts_eq (f : UrlFields) (url : Bytes) (hport : f.port = 0) :
    match parseUrl url with
    | none => (parseAttempts f url).port = 0
    | some (host, port, path) => parseAttempts f url = ⟨host, port, path⟩ := by
  have hset : (fun c : UInt8 => c != 58 && c != 47) = isHostChar := rfl
  unfold parseUrl parseAttempts hostPortPath hostPath hostPort hostOnly
  rw [hset]
  cases hscheme : Scan.literal (ascii "ws://") url with
  | none => simp [Scan.sscanf, hscheme, hport]
  | some afterScheme =>
    cases hhost : Scan.set isHostChar afterScheme with
    | none => simp [Scan.sscanf, hscheme, hhost, hport]
    | some r =>
      obtain ⟨host, rest⟩ := r
      cases hcolon : Scan.literal [58] rest with
      | none =>
        cases hslash : Scan.literal [47] rest with
        | none => simp [Scan.sscanf, hscheme, hhost, hcolon, hslash]; rfl
        | some tail =>
          cases hword : Scan.word tail <;>
            simp [Scan.sscanf, hscheme, hhost, hcolon, hslash, hword] <;> rfl
      | some tail =>
        -- The host is followed by a colon, so the second pattern does not match.
        have hslash := literal_slash_of_colon hcolon
        cases hint : Scan.int tail with
        | none => simp [Scan.sscanf, hscheme, hhost, hcolon, hslash, hint]; rfl
        | some r =>
          obtain ⟨port, rest⟩ := r
          cases hpath : Scan.literal [47] rest with
          | none => simp [Scan.sscanf, hscheme, hhost, hcolon, hslash, hint, hpath]; rfl
          | some tail =>
            cases hword : Scan.word tail <;>
              simp [Scan.sscanf, hscheme, hhost, hcolon, hslash, hint, hpath, hword] <;> rfl

/-- The constructor attempts this connection, whatever its variables hold before. -/
theorem ofUrl_eq (f : UrlFields) (p : Platform) (url origin : Bytes) (useMask connected : Bool) :
    WebSocketImpl.ofUrl p url origin useMask connected =
      match connectionAttempt f url origin with
      | none => (.initial p useMask, [])
      | some (host, port, path) =>
        if connected then
          ({ WebSocketImpl.initial p useMask with mSocket := true, mReadyState := .connecting },
            (requestLines host port path origin).map .handshakeSend)
        else (.initial p useMask, []) := by
  have hparse := parseAttempts_eq (f.setPort 0) url rfl
  unfold WebSocketImpl.ofUrl connectionAttempt
  by_cases hurl : url.length ≥ 128
  · rw [if_pos hurl, if_pos hurl]
  by_cases horigin : origin.length ≥ 200
  · rw [if_neg hurl, if_pos horigin, if_neg hurl, if_pos horigin]
  rw [if_neg hurl, if_neg horigin, if_neg hurl, if_neg horigin]
  cases hread : parseUrl url with
  | none =>
    rw [hread] at hparse
    simp [hparse]
  | some r =>
    obtain ⟨host, port, path⟩ := r
    rw [hread] at hparse
    simp only [hparse]
    by_cases hport : port = 0 <;> simp [hport]

/-! ### The forms of a URL -/

/-- A port in the text of a URL, and its number. -/
inductive PortText : Bytes → ℤ → Prop
  | absent : PortText [] 80
  | written {digits : Bytes} (hne : digits ≠ []) (hdigits : ∀ c ∈ digits, Scan.isDigit c)
      (hlow : 1 ≤ Scan.digits digits) (hhigh : Scan.digits digits ≤ 65535) :
      PortText (58 :: digits) (Scan.digits digits)

/-- The forms `ws://host:port/path`, `ws://host/path`, `ws://host:port` and `ws://host`, with the
host, port and path that are written. -/
structure WellFormedUrl (url host : Bytes) (port : ℤ) (path : Bytes) : Prop where
  host_ne : host ≠ []
  host_chars : ∀ c ∈ host, isHostChar c = true ∧ Scan.isSpace c = false
  path_chars : ∀ c ∈ path, Scan.isSpace c = false
  text : ∃ portText, PortText portText port ∧
    (url = ascii "ws://" ++ host ++ (portText ++ 47 :: path) ∨
      path = [] ∧ url = ascii "ws://" ++ host ++ portText)

/-- The URL has no host after `ws://`. -/
def NoHost (url : Bytes) : Prop :=
  ¬∃ c rest, url = ascii "ws://" ++ c :: rest ∧ isHostChar c = true

/-- The host is followed by a colon and a number that `%d` stores as zero. -/
def ZeroPort (url : Bytes) : Prop :=
  ∃ host rest v tail, url = ascii "ws://" ++ host ++ 58 :: rest ∧ host ≠ [] ∧
    (∀ c ∈ host, isHostChar c = true) ∧ Scan.int rest = some (v, tail) ∧ Scan.toInt32 v = 0

/-- The port after a host, and what follows it. -/
def readPort (rest : Bytes) : ℤ × Bytes :=
  match Scan.literal [58] rest with
  | none => (80, rest)
  | some t =>
    match Scan.int t with
    | none => (80, rest)
    | some (v, tail) => (Scan.toInt32 v, tail)

/-- The path after a port. -/
def readPath (rest : Bytes) : Bytes :=
  match Scan.literal [47] rest with
  | none => []
  | some t =>
    match Scan.word t with
    | none => []
    | some (path, _) => path

/-- What follows a host is read as a port and a path. -/
theorem parseUrl_append {host rest : Bytes} (hne : host ≠ [])
    (hchars : ∀ c ∈ host, isHostChar c = true)
    (hrest : ∀ c ∈ rest.head?, isHostChar c = false) :
    parseUrl (ascii "ws://" ++ host ++ rest) =
      some (host, (readPort rest).1, readPath (readPort rest).2) := by
  have hset : Scan.set (fun c => c != 58 && c != 47) (host ++ rest) = some (host, rest) :=
    Scan.set_append hne hchars hrest
  unfold parseUrl
  rw [List.append_assoc, Scan.literal_append]
  simp only [Option.bind_eq_bind, Option.bind_some, hset]
  cases hcolon : Scan.literal [58] rest with
  | none =>
    cases hslash : Scan.literal [47] rest with
    | none => simp [readPort, readPath, hcolon, hslash]
    | some t => cases hword : Scan.word t <;> simp [readPort, readPath, hcolon, hslash, hword]
  | some t =>
    cases hint : Scan.int t with
    | none =>
      have hslash := literal_slash_of_colon hcolon
      simp [readPort, readPath, hcolon, hint, hslash]
    | some r =>
      cases hslash : Scan.literal [47] r.2 with
      | none => simp [readPort, readPath, hcolon, hint, hslash]
      | some t =>
        cases hword : Scan.word t <;> simp [readPort, readPath, hcolon, hint, hslash, hword]

theorem readPort_of_not_colon {rest : Bytes} (h : ∀ c ∈ rest.head?, c ≠ 58) :
    readPort rest = (80, rest) := by
  have hnone : Scan.literal [58] rest = none := by
    cases rest with
    | nil => rfl
    | cons c rest =>
      have hc : c ≠ 58 := h c rfl
      simp [Scan.literal, hc.symm]
  rw [readPort, hnone]

theorem readPort_written {digits rest : Bytes} (hne : digits ≠ [])
    (hdigits : ∀ c ∈ digits, Scan.isDigit c) (hhigh : Scan.digits digits ≤ 65535)
    (hrest : ∀ c ∈ rest.head?, Scan.isDigit c = false) :
    readPort (58 :: digits ++ rest) = ((Scan.digits digits : ℤ), rest) := by
  have hcolon : Scan.literal [58] (58 :: digits ++ rest) = some (digits ++ rest) :=
    Scan.literal_append [58] (digits ++ rest)
  have hvalue : Scan.toInt32 (Scan.digits digits) = Scan.digits digits :=
    Scan.toInt32_of_lt (by omega) (by omega)
  rw [readPort, hcolon]
  simp only [Scan.int_append hne hdigits hrest, hvalue]

theorem readPath_written {path : Bytes} (h : ∀ c ∈ path, Scan.isSpace c = false) :
    readPath (47 :: path) = path := by
  have hslash : Scan.literal [47] (47 :: path) = some path := Scan.literal_append [47] path
  rw [readPath, hslash]
  cases path with
  | nil => rfl
  | cons c path =>
    have hskip : Scan.skipSpace (c :: path) = c :: path :=
      List.dropWhile_cons_of_neg (by simp [h c List.mem_cons_self])
    have hset : Scan.set (!Scan.isSpace ·) (c :: path ++ []) = some (c :: path, []) :=
      Scan.set_append (by simp) (fun d hd => by simp [h d hd]) (by simp)
    rw [List.append_nil] at hset
    simp only [Scan.word, hskip, hset]

/-- A port is read with what follows it. -/
theorem PortText.readPort {text rest : Bytes} {port : ℤ} (h : PortText text port)
    (hrest : rest = [] ∨ ∃ path, rest = 47 :: path) :
    WsClient.readPort (text ++ rest) = (port, rest) := by
  have hhead : ∀ c ∈ rest.head?, c = 47 := by
    rcases hrest with rfl | ⟨path, rfl⟩
    · simp
    · simp
  cases h with
  | absent =>
    refine readPort_of_not_colon fun c hc => ?_
    rw [hhead c hc]
    decide
  | written hne hdigits _ hhigh =>
    refine readPort_written hne hdigits hhigh fun c hc => ?_
    rw [hhead c hc]
    decide

/-- A port ends the host. -/
theorem PortText.head_not_host {text rest : Bytes} {port : ℤ} (h : PortText text port)
    (hrest : rest = [] ∨ ∃ path, rest = 47 :: path) :
    ∀ c ∈ (text ++ rest).head?, isHostChar c = false := by
  cases h with
  | absent =>
    rcases hrest with rfl | ⟨path, rfl⟩
    · simp
    · simp [isHostChar]
  | written => simp [isHostChar]

theorem PortText.port_ne {text : Bytes} {port : ℤ} (h : PortText text port) : port ≠ 0 := by
  cases h with
  | absent => decide
  | written _ _ hlow _ => omega

theorem PortText.colon_or_digit {text : Bytes} {port : ℤ} (h : PortText text port) :
    ∀ c ∈ text, c = 58 ∨ Scan.isDigit c = true := by
  cases h with
  | absent => simp
  | written _ hdigits _ _ =>
    intro c hc
    exact (List.mem_cons.mp hc).imp_right (hdigits c)

/-- A URL of one of the four forms is read as it is written. -/
theorem WellFormedUrl.parseUrl {url host path : Bytes} {port : ℤ}
    (h : WellFormedUrl url host port path) :
    WsClient.parseUrl url = some (host, port, path) := by
  have hchars : ∀ c ∈ host, isHostChar c = true := fun c hc => (h.host_chars c hc).1
  have hread (rest : Bytes) (text : Bytes) (htext : PortText text port)
      (hrest : rest = [] ∨ ∃ path, rest = 47 :: path) :
      WsClient.parseUrl (ascii "ws://" ++ host ++ (text ++ rest)) =
        some (host, port, readPath rest) := by
    rw [parseUrl_append h.host_ne hchars (htext.head_not_host hrest), htext.readPort hrest]
  obtain ⟨text, htext, rfl | ⟨rfl, rfl⟩⟩ := h.text
  · rw [hread _ text htext (.inr ⟨path, rfl⟩), readPath_written h.path_chars]
  · have hempty := hread [] text htext (.inl rfl)
    rw [List.append_nil] at hempty
    exact hempty

/-! ### The URLs without an attempt -/

/-- What a URL with a host consists of. -/
theorem exists_host_of_not_noHost {url : Bytes} (h : ¬NoHost url) :
    ∃ host rest, url = ascii "ws://" ++ host ++ rest ∧ host ≠ [] ∧
      (∀ c ∈ host, isHostChar c = true) ∧ ∀ c ∈ rest.head?, isHostChar c = false := by
  obtain ⟨c, tail, rfl, hc⟩ := not_not.mp h
  have hset : Scan.set isHostChar (c :: tail) = some
      ((c :: tail).takeWhile isHostChar, (c :: tail).dropWhile isHostChar) := by
    simp [Scan.set, List.takeWhile_cons_of_pos hc]
  obtain ⟨happend, hne, hchars, hrest⟩ := Scan.set_eq_some hset
  refine ⟨_, _, ?_, hne, hchars, hrest⟩
  rw [List.append_assoc, ← happend]

theorem parseUrl_of_noHost {url : Bytes} (h : NoHost url) : parseUrl url = none := by
  unfold parseUrl
  cases hscheme : Scan.literal (ascii "ws://") url with
  | none => rfl
  | some tail =>
    cases hhost : Scan.set (fun c => c != 58 && c != 47) tail with
    | none => simp [hhost]
    | some r =>
      exfalso
      obtain ⟨rfl, hne, hchars, -⟩ := Scan.set_eq_some hhost
      obtain ⟨c, host, hcons⟩ := List.exists_cons_of_ne_nil hne
      refine h ⟨c, host ++ r.2, ?_, hchars c (by simp [hcons])⟩
      rw [Scan.literal_eq_some.mp hscheme, hcons, List.cons_append]

theorem readPort_eq_zero {rest : Bytes} (h : (readPort rest).1 = 0) :
    ∃ t v tail, rest = 58 :: t ∧ Scan.int t = some (v, tail) ∧ Scan.toInt32 v = 0 := by
  unfold readPort at h
  cases hcolon : Scan.literal [58] rest with
  | none => simp [hcolon] at h
  | some t =>
    cases hint : Scan.int t with
    | none => simp [hcolon, hint] at h
    | some r =>
      obtain ⟨v, tail⟩ := r
      simp only [hcolon, hint] at h
      exact ⟨t, v, tail, Scan.literal_eq_some.mp hcolon, hint, h⟩

/-- The URLs for which no connection is attempted. -/
theorem connectionAttempt_eq_none (f : UrlFields) {url origin : Bytes} (hurl : url.length < 128)
    (horigin : origin.length < 200) :
    connectionAttempt f url origin = none ↔ NoHost url ∨ ZeroPort url := by
  have hparse := parseAttempts_eq (f.setPort 0) url rfl
  rw [connectionAttempt, if_neg (by omega), if_neg (by omega)]
  by_cases hhost : NoHost url
  · rw [parseUrl_of_noHost hhost] at hparse
    simp [hhost, show (parseAttempts (f.setPort 0) url).port = 0 from hparse]
  obtain ⟨host, rest, rfl, hne, hchars, hrest⟩ := exists_host_of_not_noHost hhost
  rw [parseUrl_append hne hchars hrest] at hparse
  simp only [hparse, hhost, false_or]
  constructor
  · intro hnone
    have hzero : (readPort rest).1 = 0 := by
      by_contra hport
      simp [hport] at hnone
    obtain ⟨t, v, tail, rfl, hint, hv⟩ := readPort_eq_zero hzero
    exact ⟨host, t, v, tail, rfl, hne, hchars, hint, hv⟩
  · rintro ⟨host', t, v, tail, heq, hne', hchars', hint, hv⟩
    have hread := parseUrl_append hne hchars hrest
    have hcolon : ∀ c ∈ (58 :: t).head?, isHostChar c = false := by simp [isHostChar]
    rw [heq, parseUrl_append hne' hchars' hcolon] at hread
    have hport : (readPort (58 :: t)).1 = 0 := by
      have hlit : Scan.literal [58] (58 :: t) = some t := Scan.literal_append [58] t
      simp [readPort, hlit, hint, hv]
    have hzero : (readPort rest).1 = 0 := by
      rw [← (Prod.mk.inj (Prod.mk.inj (Option.some.inj hread)).2).1]
      exact hport
    simp [hzero]

/-- For a URL of one of the four forms, the connection that is written is attempted. -/
theorem WellFormedUrl.connectionAttempt (f : UrlFields) {url origin host path : Bytes} {port : ℤ}
    (h : WellFormedUrl url host port path) (hurl : url.length < 128)
    (horigin : origin.length < 200) :
    WsClient.connectionAttempt f url origin = some (host, port, path) := by
  have hparse := parseAttempts_eq (f.setPort 0) url rfl
  rw [h.parseUrl] at hparse
  obtain ⟨text, htext, -⟩ := h.text
  rw [WsClient.connectionAttempt, if_neg (by omega), if_neg (by omega)]
  simp [show parseAttempts (f.setPort 0) url = ⟨host, port, path⟩ from hparse, htext.port_ne]

/-- The connection that is attempted is the one that the URL says, and there is none for other
strings, exactly for the URLs of the four forms and those without a host or with a port that reads
as zero; an origin of 200 characters or more prevents every attempt. -/
theorem url_parsing (f : UrlFields) (url origin : Bytes) (hurl : url.length < 128) :
    (∀ host port path, connectionAttempt f url origin = some (host, port, path) ↔
        WellFormedUrl url host port path) ↔
      if origin.length < 200 then
        (∃ host port path, WellFormedUrl url host port path) ∨ NoHost url ∨ ZeroPort url
      else ¬∃ host port path, WellFormedUrl url host port path := by
  by_cases horigin : origin.length < 200
  · rw [if_pos horigin, ← connectionAttempt_eq_none f hurl horigin]
    constructor
    · intro h
      cases hattempt : connectionAttempt f url origin with
      | none => exact .inr rfl
      | some r =>
        obtain ⟨host, port, path⟩ := r
        exact .inl ⟨host, port, path, (h host port path).mp hattempt⟩
    · rintro (⟨host, port, path, hform⟩ | hnone) host' port' path'
      · refine ⟨fun hattempt => ?_, fun hform' => hform'.connectionAttempt f hurl horigin⟩
        rw [hform.connectionAttempt f hurl horigin] at hattempt
        obtain ⟨rfl, rfl, rfl⟩ : host = host' ∧ port = port' ∧ path = path' := by
          simpa using hattempt
        exact hform
      · refine ⟨fun hattempt => by simp [hnone] at hattempt, fun hform' => ?_⟩
        rw [hform'.connectionAttempt f hurl horigin] at hnone
        cases hnone
  · rw [if_neg horigin]
    have hnone : connectionAttempt f url origin = none := by
      rw [connectionAttempt, if_neg (by omega), if_pos (by omega)]
    constructor
    · rintro h ⟨host, port, path, hform⟩
      rw [(h host port path).mpr hform] at hnone
      cases hnone
    · intro h host port path
      refine ⟨fun hattempt => by simp [hnone] at hattempt, fun hform => ?_⟩
      exact absurd ⟨host, port, path, hform⟩ h

/-- `ws://h:8080/p` is of the first form. -/
theorem url_parsing_port :
    (∀ host port path,
      connectionAttempt ⟨[], 0, []⟩ (ascii "ws://h:8080/p") [] = some (host, port, path) ↔
        WellFormedUrl (ascii "ws://h:8080/p") host port path) ∧
      connectionAttempt ⟨[], 0, []⟩ (ascii "ws://h:8080/p") [] =
        some (ascii "h", 8080, ascii "p") := by
  refine ⟨(url_parsing ⟨[], 0, []⟩ _ [] (by decide +kernel)).mpr ?_, by decide +kernel⟩
  rw [if_pos (by decide)]
  exact .inl ⟨ascii "h", _, ascii "p", by decide +kernel, by decide +kernel, by decide +kernel,
    58 :: ascii "8080", .written (by decide) (by decide +kernel) (by decide +kernel)
      (by decide +kernel), .inl (by decide +kernel)⟩

/-- The text after a port is ignored: `ws://host:80abc` is not of the four forms, and a connection
to port 80 of the host is attempted. -/
theorem url_ignores_text_after_port :
    connectionAttempt ⟨[], 0, []⟩ (ascii "ws://host:80abc") [] = some (ascii "host", 80, []) ∧
      ¬∀ (f : UrlFields) (url origin : Bytes), url.length < 128 → origin.length < 200 →
        ∀ host port path, connectionAttempt f url origin = some (host, port, path) ↔
          WellFormedUrl url host port path := by
  have hattempt : connectionAttempt ⟨[], 0, []⟩ (ascii "ws://host:80abc") [] =
      some (ascii "host", 80, []) := by decide +kernel
  refine ⟨hattempt, fun h => ?_⟩
  have hform := (h _ _ [] (by decide +kernel) (by decide) _ _ _).mp hattempt
  have hurl : ascii "ws://host:80abc" = ascii "ws://" ++ ascii "host" ++ ascii ":80abc" := by
    decide +kernel
  obtain ⟨text, htext, hrest⟩ := hform.text
  -- The letter after the port would be one of its digits.
  have hletter : 97 ∈ text := by
    rw [hurl] at hrest
    rcases hrest with heq | ⟨-, heq⟩
    · have hmem : (97 : UInt8) ∈ text ++ [47] := by
        rw [← List.append_cancel_left heq]
        decide
      simpa using hmem
    · rw [← List.append_cancel_left heq]
      decide
  exact absurd (htext.colon_or_digit 97 hletter) (by decide)

end WsClient
