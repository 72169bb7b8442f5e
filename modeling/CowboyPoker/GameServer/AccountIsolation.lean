import CowboyPoker.GameServer.RedisServer
import CowboyPoker.GameServer.UserIds

/-!
# Accounts along runs

* `UsesAccount user` — all commands that a step issues are about the hash `user:{user}`, and every
  `S_PLAYER_INFO` it builds has the record that the server answered to an `HGETALL` of that hash in
  the step.
* `account_of_datagram` — a datagram dispatched on a session uses one account. A purchase uses the
  account of the user that its payload names; every other datagram the one that the last handshake
  bound to the session. A user id with a NUL byte is left out: its key is cut.

The payload of a purchase carries the user because the format of the packet says so, and nothing
compares it with the session: `not_usesAccount_purchaseForA` is a purchase on the account of
somebody else.
-/

namespace CowboyPoker.GameServer

open CowboyPoker.Found
open CowboyPoker.ServerCore
open UdpService

variable {ρ : Type} {B : Backend ρ}

/-- The command is about the hash `user:{user}`.
Source: `GameServer/RedisClient.h`, the comment on `PlayerRedisInfo` -/
def RedisCommand.IsAbout (user : Bytes) (c : RedisCommand) : Prop := c.key = ascii "user:" ++ user

instance (user : Bytes) (c : RedisCommand) : Decidable (c.IsAbout user) :=
  inferInstanceAs (Decidable (_ = _))

/-- The step works on the account of `user` and on no other. -/
structure UsesAccount (B : Backend ρ) (t : Entry (Server ρ) Event Output) (user : Bytes) : Prop where
  /-- Redis is asked about the hash of the user only. -/
  commands : RedisClient.Commands B (·.IsAbout user) t.before.redis t.after.redis
  /-- A record that is sent was read from the hash of the user in the step. -/
  described : ∀ id info, ServerPacket.playerInfo id info ∈ t.output.built →
    RedisClient.ReadBetween B (·.IsAbout user) (ascii "user:" ++ user) user info t.before.redis
      t.after.redis

/-- Only a purchase names its user. -/
theorem accountOf_of_ne {buffer : Bytes} {len : ℕ} (bound : Bytes)
    (h : PacketType.ofId (UdpPacketHeader.read buffer).id ≠ some .cPurchaseWeapon) :
    accountOf bound buffer len = bound := by
  unfold accountOf
  split
  · contradiction
  · rfl

/-- The user of a purchase is the one that it names. -/
theorem accountOf_of_parse {buffer user : Bytes} {len : ℕ} {weaponType : Int32} {reads : List Span}
    (bound : Bytes) (h : PacketType.ofId (UdpPacketHeader.read buffer).id = some .cPurchaseWeapon)
    (hparse : parseBuyWeapon (buffer.drop udpPacketHeaderSize) (len - udpPacketHeaderSize) =
      (some (user, weaponType), reads)) : accountOf bound buffer len = user := by
  simp only [accountOf, h, hparse]

/-- A handled datagram uses the account of its user. -/
theorem usesAccount_handled (B : Backend ρ) (s : Server ρ) (d : Datagram) (now later : ℤ) (r : ℕ)
    (service : UdpService) {user : Bytes} (hnul : 0 ∉ user)
    (huser : accountOf ((Server.handled B s d later r service).1.service.heap r).userId d.data
      d.data.length = user) :
    UsesAccount B ⟨s, .recv d now later, (Server.handled B s d later r service).1,
      (Server.handled B s d later r service).2⟩ user := by
  have hspec := Server.handled_spec B s d later r service
  rw [huser] at hspec
  have habout : ∀ c : RedisCommand, c.key = userKey user → c.IsAbout user := by
    intro c hc
    rwa [userKey_of_zero_notMem hnul] at hc
  constructor
  · exact hspec.commands.mono habout
  · intro id info hbuilt
    obtain ⟨q, hq, hpacket⟩ := List.mem_map.mp hbuilt
    have hread := hspec.described id info ⟨q, hq, hpacket⟩
    rw [← userKey_of_zero_notMem hnul]
    exact hread.extend habout (.refl _) (.refl _)

/-- **Accounts.** Whenever a run dispatches a datagram on a session, the step uses one account. It is
the account of the user bound by the last handshake dispatched on the session, unless the datagram is
a purchase; a purchase uses the account of the user that it names. Users are those whose id has no
NUL byte. -/
theorem account_of_datagram (rc : RedisClient ρ) {es : List Event}
    {pre post : List (Entry (Server ρ) Event Output)} {t : Entry (Server ρ) Event Output}
    {d : Datagram} {now later : ℤ} {r : UdpClientContextRef}
    (htrace : (server B).trace (.init rc) es = pre ++ t :: post)
    (hinput : t.input = .recv d now later) (hdispatched : t.output.dispatched = some r) :
    (t.after.service.heap r).userId = boundUser r (pre ++ [t]) ∧
    (PacketType.ofId d.header.id ≠ some .cPurchaseWeapon → 0 ∉ boundUser r (pre ++ [t]) →
      UsesAccount B t (boundUser r (pre ++ [t]))) ∧
    (PacketType.ofId d.header.id = some .cPurchaseWeapon →
      ∀ user weaponType reads, parseBuyWeapon (d.data.drop udpPacketHeaderSize)
          (d.data.length - udpPacketHeaderSize) = (some (user, weaponType), reads) →
        0 ∉ user → UsesAccount B t user) ∧
    (PacketType.ofId d.header.id = some .cPurchaseWeapon →
      ∀ reads, parseBuyWeapon (d.data.drop udpPacketHeaderSize)
          (d.data.length - udpPacketHeaderSize) = (none, reads) →
        t.after.redis = t.before.redis ∧ t.output.built = []) := by
  obtain ⟨fs, e, gs, -, rfl, rfl, -⟩ := (server B).trace_eq_append_cons htrace
  obtain rfl : e = .recv d now later := hinput
  have hbound := userId_eq_boundUser (B := B) rc (fs ++ [.recv d now later]) r
  rw [Transducer.exec_append, Transducer.trace_append] at hbound
  generalize (server B).exec (.init rc) fs = s at hdispatched hbound ⊢
  simp only [Transducer.exec_cons, Transducer.exec_nil, Transducer.trace_cons,
    Transducer.trace_nil] at hbound
  rw [← hbound]
  simp only [Transducer.entry, server] at hdispatched ⊢
  rcases recv_cases B s d now later with heq | ⟨r', service, -, -, heq⟩
  · rw [heq] at hdispatched
    cases hdispatched
  · rw [heq] at hdispatched ⊢
    cases hdispatched
    refine ⟨trivial, fun hne hnul => ?_, fun htype user weaponType reads hparse hnul => ?_,
      fun htype reads hparse => ?_⟩
    · exact usesAccount_handled B s d now later r service hnul (accountOf_of_ne _ hne)
    · exact usesAccount_handled B s d now later r service hnul (accountOf_of_parse _ htype hparse)
    · rw [Datagram.header] at htype
      simp only [Server.handled, handlePacket, htype, handleCBuyWeapon, hparse]
      exact ⟨trivial, rfl⟩

/-! ## A purchase on the account of somebody else -/

/-- The handshake of a client as user `B`. -/
def helloB : Event := .recv (.helloOf ⟨0x0100007F, 0x3930⟩ 66) 0 0

/-- The same client buys the revolver of type 4 for user `A`. -/
def purchaseForA : Event :=
  .recv (.ofPayload ⟨0x0100007F, 0x3930⟩ ⟨1, 1, PacketType.cPurchaseWeapon.value⟩
    [1, 0, 65, 4, 0, 0, 0] (by decide)) 5 5

/-- Redis, where no text is a `float`. -/
def redisWithoutFloats : Backend RedisServer := faultyRedis fun _ => .error .invalidArgument

/-- A server that knows user `A`. -/
def serverWithUserA : Transducer (Server RedisServer) Event Output := server redisWithoutFloats

theorem account_of_datagram_purchaseForA :
    UsesAccount redisWithoutFloats (serverWithUserA.entry
      (serverWithUserA.exec (.init (redisWithUserA [])) [helloB]) purchaseForA) [65] := by
  have htrace : serverWithUserA.trace (.init (redisWithUserA [])) [helloB, purchaseForA] =
      serverWithUserA.trace (.init (redisWithUserA [])) [helloB] ++
        serverWithUserA.entry (serverWithUserA.exec (.init (redisWithUserA [])) [helloB])
          purchaseForA :: [] := rfl
  have hdispatched : (serverWithUserA.entry (serverWithUserA.exec (.init (redisWithUserA []))
      [helloB]) purchaseForA).output.dispatched = some 0 := by
    decide +kernel
  exact (account_of_datagram (redisWithUserA []) htrace rfl hdispatched).2.2.1 (by decide) [65] 4
    [⟨0, 2⟩, ⟨2, 1⟩, ⟨3, 4⟩] (by decide) (by decide)

/-- The session is bound to `B`, but the purchase charges `A`. -/
theorem not_usesAccount_purchaseForA :
    ((serverWithUserA.exec (.init (redisWithUserA [])) [helloB, purchaseForA]).redis.record
      [65]).lookup (ascii "balance") = some (ascii "500") ∧
    ¬ ∀ t ∈ serverWithUserA.trace (.init (redisWithUserA [])) [helloB, purchaseForA],
      ∀ r, t.output.dispatched = some r →
        UsesAccount redisWithoutFloats t (t.after.service.heap r).userId := by
  constructor
  · decide +kernel
  · intro h
    have huses := h _ (List.mem_cons_of_mem _ List.mem_cons_self) 0 (by decide +kernel)
    exact absurd (huses.commands.issuedOnly.of_mem_drop
      (c := .hget (userKey [65]) (ascii "balance")) (by decide +kernel)) (by decide +kernel)

end CowboyPoker.GameServer
