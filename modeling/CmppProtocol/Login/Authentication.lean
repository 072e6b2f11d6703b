import CmppProtocol.Login.Session

/-! # Who is at the other end

CONNECT carries what the gateway needs to check the client, and the response is
accepted only when it carries the digest over the secret of the client. What the
digest function can promise is left to it.
-/

namespace CmppProtocol

open CmppFrameCodec

/-! ## The timestamp -/

/-- A number in the given count of decimal digits. -/
def decimal (n : ℕ) : ℕ → List Char
  | 0 => []
  | digits + 1 => decimal (n / 10) digits ++ [Nat.digitChar (n % 10)]

theorem decimal_zero (digits : ℕ) : decimal 0 digits = List.replicate digits '0' := by
  induction digits with
  | zero => rfl
  | succ digits ih => rw [decimal, Nat.zero_div, ih, List.replicate_succ']; rfl

/-- Padding with zeros on the left gives all digits. -/
theorem replicate_toDigits {n digits : ℕ} (h : n < 10 ^ digits) (hpos : 0 < digits) :
    List.replicate (digits - (Nat.toDigits 10 n).length) '0' ++ Nat.toDigits 10 n =
      decimal n digits := by
  induction digits generalizing n with
  | zero => exact absurd hpos (by decide)
  | succ digits ih =>
    by_cases hsmall : n < 10
    · have hdiv : n / 10 = 0 := Nat.div_eq_of_lt hsmall
      rw [Nat.toDigits_of_lt_base hsmall, decimal, hdiv, decimal_zero, Nat.mod_eq_of_lt hsmall]
      rfl
    · have hge : 10 ≤ n := not_lt.mp hsmall
      have hlt : n / 10 < 10 ^ digits := by
        rw [Nat.pow_succ] at h
        omega
      have hdigits : 0 < digits := by
        apply Nat.pos_of_ne_zero
        rintro rfl
        omega
      have hmore : digits + 1 - ((Nat.toDigits 10 (n / 10)).length + 1) =
          digits - (Nat.toDigits 10 (n / 10)).length := by omega
      rw [Nat.toDigits_of_base_le (by decide) hge, List.length_append, List.length_singleton, hmore,
        ← List.append_assoc, ih hlt hdigits, decimal]

theorem decimal_append (n a b : ℕ) : decimal n (a + b) = decimal (n / 10 ^ b) a ++ decimal n b := by
  induction b generalizing n with
  | zero => rw [Nat.pow_zero, Nat.div_one, Nat.add_zero, decimal, List.append_nil]
  | succ b ih =>
    rw [← Nat.add_assoc, decimal, ih, decimal, List.append_assoc, Nat.div_div_eq_div_mul,
      ← Nat.pow_succ']

theorem decimal_mod (n b : ℕ) : decimal (n % 10 ^ b) b = decimal n b := by
  induction b generalizing n with
  | zero => rfl
  | succ b ih =>
    have hdiv : n % 10 ^ (b + 1) / 10 = n / 10 % 10 ^ b := by
      rw [Nat.pow_succ', Nat.mod_mul_right_div_self]
    have hmod : n % 10 ^ (b + 1) % 10 = n % 10 :=
      Nat.mod_mod_of_dvd n (Dvd.intro_left (10 ^ b) (Nat.pow_succ 10 b).symm)
    rw [decimal, decimal, hdiv, hmod, ih]

/-- The sum does not overflow. -/
theorem UtcTime.toNat_timestamp (now : UtcTime) : now.timestamp.toNat =
    (((now.month * 100 + now.day) * 100 + now.hour) * 100 + now.minute) * 100 + now.second := by
  have := now.month_le
  have := now.day_le
  have := now.hour_lt
  have := now.minute_lt
  have := now.second_lt
  simp only [timestamp, UInt32.toNat_add, UInt32.toNat_mul, UInt32.toNat_ofNat', UInt32.reduceToNat]
  omega

/-- The digits that are hashed are the two digits of each field. -/
theorem UtcTime.timestampStr_toList (now : UtcTime) : (timestampStr now.timestamp).toList =
    decimal now.month 2 ++ decimal now.day 2 ++ decimal now.hour 2 ++ decimal now.minute 2 ++
      decimal now.second 2 := by
  have := now.month_le
  have := now.day_le
  have := now.hour_lt
  have := now.minute_lt
  have := now.second_lt
  have hlt : now.timestamp.toNat < 10 ^ 10 := by
    rw [now.toNat_timestamp]
    omega
  have hsplit (x y k : ℕ) (hy : y < 100) : decimal (x * 100 + y) (k + 2) =
      decimal x k ++ decimal y 2 := by
    have hdiv : (x * 100 + y) / 10 ^ 2 = x := by omega
    have hmod : (x * 100 + y) % 10 ^ 2 = y := by omega
    rw [decimal_append, hdiv, ← decimal_mod (x * 100 + y), hmod]
  rw [timestampStr, String.toList_ofList, replicate_toDigits hlt (by decide), now.toNat_timestamp,
    hsplit _ _ 8 (by omega), hsplit _ _ 6 (by omega), hsplit _ _ 4 (by omega),
    hsplit _ _ 2 (by omega)]

/-! ## The two digests -/

open Login

variable (md5 : List UInt8 → Vector UInt8 16) {c : CmppConfig} {env : LoginEnv}
  {udhReferenceCooldown : ℕ}

/-- The response of a gateway that knows a secret: `MD5(Status + AuthenticatorSource + secret)`. -/
def ConnectResp.signed (status : UInt8) (request : Connect) (secret : String) (version : UInt8) :
    ConnectResp :=
  ⟨status, computeAuthenticatorIsmg md5 status request.authenticatorSource secret, version⟩

theorem checkResponse_ok_iff {frame : Option Frame} : checkResponse md5 c env frame = .ok () ↔
    ∃ sequenceId response, frame = some ⟨sequenceId, .connectResp response⟩ ∧
      response.status = 0 ∧ (c.protocolParams.verifyAuthenticator = true →
        response.authenticatorIsmg = computeAuthenticatorIsmg md5 response.status
          (connectPdu md5 c env).authenticatorSource c.password) := by
  constructor
  · intro h
    unfold checkResponse at h
    split at h
    · cases h
    · next sequenceId response =>
      split_ifs at h with hstatus hdigest
      refine ⟨sequenceId, response, rfl, not_not.mp hstatus, fun hverify => ?_⟩
      simpa only [hverify, Bool.true_and, decide_eq_true_eq, not_not] using hdigest
    · cases h
  · rintro ⟨sequenceId, response, rfl, hstatus, hdigest⟩
    have hrejects : ¬ (c.protocolParams.verifyAuthenticator && decide (response.authenticatorIsmg ≠
        computeAuthenticatorIsmg md5 response.status (connectPdu md5 c env).authenticatorSource
          c.password)) = true := by
      rw [Bool.and_eq_true, decide_eq_true_eq]
      exact fun ⟨hverify, hne⟩ => hne (hdigest hverify)
    simp only [checkResponse, hstatus, ne_eq, not_true_eq_false, if_false]
    rw [hstatus] at hrejects
    rw [if_neg hrejects]

/-- A first frame that arrives whole is checked. What is behind it is left to be read. -/
theorem connect_decides (h : Ready c env udhReferenceCooldown) {chunks : List (List UInt8)}
    {frame : Frame} {rest : List UInt8}
    (hd : decode chunks.flatten = some (.ok (some frame), rest)) :
    ∃ later reads, connect md5 c env udhReferenceCooldown ⟨[], [], chunks⟩ =
        some ((checkResponse md5 c env (some frame)).map fun _ =>
          .of c h.valid udhReferenceCooldown, ⟨(connectFrame md5 c env).octets, later, reads⟩) ∧
      later ++ reads.flatten = rest := by
  have hwaits : decode [] = some (.ok none, []) := decode_short (by decide)
  obtain ⟨later, reads, hnext, hrest⟩ := FramedRead.nextFrom_decides env.ending
    (connectFrame md5 c env).octets hwaits hd (by simp)
  have hnext : FramedRead.next env.ending ⟨(connectFrame md5 c env).octets, [], chunks⟩ =
      some (.ok (some frame), ⟨(connectFrame md5 c env).octets, later, reads⟩) := hnext
  refine ⟨later, reads, ?_, hrest⟩
  rw [connect_ready md5 h, List.nil_append]
  simp only [Bind.bind, hnext]
  cases checkResponse md5 c env (some frame) with
  | error e => rfl
  | ok _ => rfl

/-- Nothing else is accepted. -/
theorem connect_accepts (h : Ready c env udhReferenceCooldown) {chunks : List (List UInt8)}
    {established : Established} {socket : LoginSocket}
    (hok : connect md5 c env udhReferenceCooldown ⟨[], [], chunks⟩ =
      some (.ok established, socket)) :
    ∃ frame, decode chunks.flatten =
        some (.ok (some frame), socket.buffer ++ socket.reads.flatten) ∧
      checkResponse md5 c env (some frame) = .ok () := by
  obtain ⟨i, hi⟩ := drain_terminates [] chunks.flatten
  have hstream : Drains [] chunks.flatten i := ⟨_, hi⟩
  obtain ⟨later, reads, hconnect, _⟩ := connect_first md5 h hstream
  rw [hok] at hconnect
  obtain ⟨hresult, _⟩ := Prod.mk.inj (Option.some.inj hconnect)
  cases hverdict : verdict (c := c) md5 env i with
  | error e =>
    rw [hverdict] at hresult
    cases hresult
  | ok accepted =>
    obtain ⟨first, frames, hframes, hcheck⟩ := verdict_frames md5 hverdict
    obtain ⟨r, rest, hd, _⟩ := decode_outcome chunks.flatten
    cases r with
    | error e =>
      rw [hstream.fails hd] at hframes
      cases hframes
    | ok frame =>
      cases frame with
      | none =>
        rw [hstream.waits hd] at hframes
        cases hframes
      | some frame =>
        obtain ⟨others, hgrows⟩ := (hstream.decoded hd).grows
        have hsame : first = frame := by
          rw [hframes] at hgrows
          exact (List.cons.inj hgrows).1
        obtain ⟨later, reads, hconnect, hrest⟩ := connect_decides md5 h hd
        rw [hok] at hconnect
        obtain ⟨_, hsocket⟩ := Prod.mk.inj (Option.some.inj hconnect)
        refine ⟨frame, ?_, hsame ▸ hcheck⟩
        rw [hsocket, hrest]
        exact hd

/-- An account without padding at its end comes back, and all of CONNECT with it. -/
theorem connectFrame_read_back (h : Ready c env udhReferenceCooldown)
    (haccount : ∀ b, (Utf8.bytes c.account).getLast? = some b → isPadding b = false) :
    decode (connectFrame md5 c env).octets = some (.ok (some (connectFrame md5 c env)), []) := by
  have hfits : FitsField c.account 6 := ⟨h.valid.account.2, haccount⟩
  have hwire : (connectFrame md5 c env).onWire = connectFrame md5 c env := by
    refine congrArg (Frame.mk 1) (Pdu.onWire_of_fits ?_)
    intro field hfield
    have hfield : field ∈ [(c.account, 6)] := hfield
    rw [List.mem_singleton.mp hfield]
    exact hfits
  have hdecoded := decode_octets (f := connectFrame md5 c env) id []
  rwa [List.append_nil, hwire] at hdecoded

/-- Both ends of the login. CONNECT with an account that has no padding at its end is read back as
it was sent, and a gateway with the same secret computes the digest that it carries, over the ten
digits of the time. The connection is set up only when the first frame of the stream is a response
of status 0 that carries, where this is checked, the digest over the secret and the digest sent; and
whatever secret the gateway has, whatever status it answers and however its bytes are cut, its
response is accepted, or refused with its status or for its digest, and the bytes behind the
response are all left to the reader. -/
theorem login_mutual (h : Ready c env udhReferenceCooldown) :
    ((∀ b, (Utf8.bytes c.account).getLast? = some b → isPadding b = false) →
      ∃ request, decode (connectFrame md5 c env).octets =
        some (.ok (some ⟨1, .connect request⟩), []) ∧ request = connectPdu md5 c env ∧
      computeAuthenticatorSource md5 request.sourceAddr c.password request.timestamp =
        request.authenticatorSource ∧
      (timestampStr request.timestamp).toList = decimal env.now.month 2 ++ decimal env.now.day 2 ++
        decimal env.now.hour 2 ++ decimal env.now.minute 2 ++ decimal env.now.second 2) ∧
    (∀ chunks established socket,
      connect md5 c env udhReferenceCooldown ⟨[], [], chunks⟩ = some (.ok established, socket) →
      ∃ sequenceId response, decode chunks.flatten = some
          (.ok (some ⟨sequenceId, .connectResp response⟩), socket.buffer ++ socket.reads.flatten) ∧
        response.status = 0 ∧ (c.protocolParams.verifyAuthenticator = true →
          response.authenticatorIsmg = computeAuthenticatorIsmg md5 0
            (connectPdu md5 c env).authenticatorSource c.password)) ∧
    ∀ (sequenceId : UInt32) (status version : UInt8) (secret : String)
      (chunks : List (List UInt8)) (more : List UInt8),
      let request := connectPdu md5 c env
      let response := ConnectResp.signed md5 status request secret version
      chunks.flatten = Frame.octets ⟨sequenceId, .connectResp response⟩ ++ more →
      ∃ result later reads,
        connect md5 c env udhReferenceCooldown ⟨[], [], chunks⟩ =
          some (result, ⟨(connectFrame md5 c env).octets, later, reads⟩) ∧
        later ++ reads.flatten = more ∧
        (status ≠ 0 → result = .error (.auth status)) ∧
        (status = 0 → (result = .ok (.of c h.valid udhReferenceCooldown) ∨
          result = .error .authenticatorMismatch) ∧
          (result = .error .authenticatorMismatch ↔
            c.protocolParams.verifyAuthenticator = true ∧
            computeAuthenticatorIsmg md5 0 request.authenticatorSource secret ≠
              computeAuthenticatorIsmg md5 0 request.authenticatorSource c.password)) := by
  refine ⟨?_, ?_, ?_⟩
  · intro haccount
    have hdecoded := connectFrame_read_back md5 h haccount
    exact ⟨connectPdu md5 c env, hdecoded, rfl, rfl, env.now.timestampStr_toList⟩
  · intro chunks established socket hok
    obtain ⟨frame, hd, hcheck⟩ := connect_accepts md5 h hok
    obtain ⟨sequenceId, response, hframe, hstatus, hdigest⟩ := (checkResponse_ok_iff md5).mp hcheck
    rw [Option.some.inj hframe] at hd
    rw [hstatus] at hdigest
    exact ⟨sequenceId, response, hd, hstatus, hdigest⟩
  · intro sequenceId status version secret chunks more request response hflat
    have hd := decode_octets (f := ⟨sequenceId, .connectResp response⟩) id more
    rw [← hflat] at hd
    obtain ⟨later, reads, hconnect, hrest⟩ := connect_decides md5 h hd
    refine ⟨_, later, reads, hconnect, hrest, ?_, ?_⟩
    · intro hstatus
      have hrefused : checkResponse md5 c env (some ⟨sequenceId, .connectResp response⟩) =
          .error (.auth status) := if_pos hstatus
      exact congrArg (Except.map _) hrefused
    · rintro rfl
      by_cases hbad : c.protocolParams.verifyAuthenticator = true ∧
          computeAuthenticatorIsmg md5 0 request.authenticatorSource secret ≠
            computeAuthenticatorIsmg md5 0 request.authenticatorSource c.password
      · have hrefused : checkResponse md5 c env (some ⟨sequenceId, .connectResp response⟩) =
            .error .authenticatorMismatch := by
          have hif : (c.protocolParams.verifyAuthenticator && decide (response.authenticatorIsmg ≠
              computeAuthenticatorIsmg md5 response.status request.authenticatorSource
                c.password)) = true := by
            rw [Bool.and_eq_true, decide_eq_true_eq]
            exact hbad
          have hstatus : ¬ response.status ≠ 0 := not_not.mpr rfl
          rw [checkResponse, if_neg hstatus]
          exact if_pos hif
        have hresult := congrArg (Except.map fun _ =>
          Established.of c h.valid udhReferenceCooldown) hrefused
        exact ⟨.inr hresult, fun _ => hbad, fun _ => hresult⟩
      · have haccepted : checkResponse md5 c env (some ⟨sequenceId, .connectResp response⟩) =
            .ok () := by
          refine (checkResponse_ok_iff md5).mpr ⟨sequenceId, response, rfl, rfl, fun hverify => ?_⟩
          exact not_not.mp fun hne => hbad ⟨hverify, hne⟩
        have hresult := congrArg (Except.map fun _ =>
          Established.of c h.valid udhReferenceCooldown) haccepted
        refine ⟨.inl hresult, fun hmismatch => ?_, fun h => absurd h hbad⟩
        have hne := hresult.symm.trans hmismatch
        cases hne

/-- A digest to run the login with. -/
def sumDigest (bytes : List UInt8) : Vector UInt8 16 := .replicate 16 (bytes.foldl (· + ·) 0)

def gatewayConfig : CmppConfig where
  host := "127.0.0.1"
  port := 7890
  account := "900001"
  password := "secret"
  version := CMPP_VERSION_20
  protocolParams := .default

def gatewayEnv : LoginEnv where
  now := ⟨12, 31, 23, 59, 59, by decide, by decide, by decide, by decide, by decide⟩
  connected := .completed
  written := .completed
  octetsWritten := 0
  ending := .silent

theorem gateway_ready : Ready gatewayConfig gatewayEnv (fromSecs 300) :=
  ⟨⟨CmppConfig.validate_ok_iff.mp (by decide), by decide, by decide, rfl⟩, rfl⟩

/-- The gateway reads the CONNECT and computes its digest. The response arrives in two pieces, with
the front of the next frame behind it. -/
theorem login_mutual_gateway :
    let request := connectPdu sumDigest gatewayConfig gatewayEnv
    let response : Frame := ⟨1, .connectResp (.signed sumDigest 0 request "secret" 0x20)⟩
    (decode (connectFrame sumDigest gatewayConfig gatewayEnv).octets =
        some (.ok (some ⟨1, .connect request⟩), []) ∧
      computeAuthenticatorSource sumDigest request.sourceAddr "secret" request.timestamp =
        request.authenticatorSource) ∧
    ∃ later reads, connect sumDigest gatewayConfig gatewayEnv (fromSecs 300)
        ⟨[], [], [response.octets.take 20, response.octets.drop 20 ++ [0, 0, 0]]⟩ =
        some (.ok (.of gatewayConfig gateway_ready.valid (fromSecs 300)),
          ⟨(connectFrame sumDigest gatewayConfig gatewayEnv).octets, later, reads⟩) ∧
      later ++ reads.flatten = [0, 0, 0] := by
  intro request response
  have haccount : ∀ b, (Utf8.bytes gatewayConfig.account).getLast? = some b →
      isPadding b = false := by
    intro b hb
    have hlast : (Utf8.bytes gatewayConfig.account).getLast? = some 49 := by decide
    cases hlast.symm.trans hb
    rfl
  have hflat : [response.octets.take 20, response.octets.drop 20 ++ [0, 0, 0]].flatten =
      response.octets ++ [0, 0, 0] := by
    rw [List.flatten_cons, List.flatten_cons, List.flatten_nil, List.append_nil,
      ← List.append_assoc, List.take_append_drop]
  obtain ⟨hread, _, hanswer⟩ := login_mutual sumDigest gateway_ready
  obtain ⟨_, hdecoded, rfl, hdigest, _⟩ := hread haccount
  obtain ⟨result, later, reads, hconnect, hrest, _, hzero⟩ :=
    hanswer 1 0 0x20 "secret" _ _ hflat
  obtain ⟨hresult, hmismatch⟩ := hzero rfl
  refine ⟨⟨hdecoded, hdigest⟩, ?_⟩
  rcases hresult with hok | hbad
  · rw [hok] at hconnect
    exact ⟨later, reads, hconnect, hrest⟩
  · exact absurd rfl (hmismatch.mp hbad).2

end CmppProtocol
