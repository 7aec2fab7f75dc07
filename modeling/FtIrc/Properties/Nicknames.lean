import FtIrc.Effects.Sessions

/-!
# Nicknames

Nicknames of connected clients are valid and differ under `toLower`, so a lookup has at most one
answer and does not depend on the order of the clients.
-/

namespace FtIrc
namespace Server

/-- The test of `findClientByNickname`. -/
def answersTo (s : Server) (nickname : Bytes) (c : ClientPtr) : Bool :=
  (s.client c).isRegistered && toLower (s.client c).nickname == toLower nickname

theorem findClientByNickname_eq (s : Server) (nickname : Bytes) :
    s.findClientByNickname nickname = s.clients.values.find? (s.answersTo nickname) := rfl

section lookup

variable {s : Server}

theorem answersTo_iff {nickname : Bytes} {c : ClientPtr} : s.answersTo nickname c = true ↔
    (s.client c).isRegistered = true ∧ toLower (s.client c).nickname = toLower nickname := by
  simp [answersTo]

theorem Identities.answersTo_unique (h : s.Identities) {nickname : Bytes} {c d : ClientPtr}
    (hc : s.LiveClient c) (hd : s.LiveClient d) (hac : s.answersTo nickname c = true)
    (had : s.answersTo nickname d = true) : c = d := by
  obtain ⟨hreg, hnick⟩ := answersTo_iff.mp hac
  obtain ⟨-, hnick'⟩ := answersTo_iff.mp had
  exact h.unique c d hc hd (h.registered c hc hreg).2.1 (hnick.trans hnick'.symm)

/-- In a list of the connected clients, in any order, the client found is the one that answers. -/
theorem Identities.find_iff (h : s.Identities) {cs : List ClientPtr}
    (hcs : ∀ c, c ∈ cs ↔ s.LiveClient c) (nickname : Bytes) (c : ClientPtr) :
    cs.find? (s.answersTo nickname) = some c ↔ s.LiveClient c ∧ s.answersTo nickname c = true := by
  constructor
  · intro hfind
    exact ⟨(hcs c).mp (List.mem_of_find?_eq_some hfind), List.find?_some hfind⟩
  · intro ⟨hc, hac⟩
    cases hfind : cs.find? (s.answersTo nickname) with
    | none => exact absurd hac (List.find?_eq_none.mp hfind c ((hcs c).mpr hc))
    | some d =>
      have hd := (hcs d).mp (List.mem_of_find?_eq_some hfind)
      rw [h.answersTo_unique hd hc (List.find?_some hfind) hac]

end lookup

structure NicknameUniqueness (s : Server) : Prop where
  valid : ∀ c, s.LiveClient c → (s.client c).nickname ≠ [] →
    isValidNickname (s.client c).nickname = true
  unique : ∀ c d, s.LiveClient c → s.LiveClient d → c ≠ d → (s.client c).nickname ≠ [] →
    (s.client d).nickname ≠ [] → toLower (s.client c).nickname ≠ toLower (s.client d).nickname
  found : ∀ n, (∃ c, s.findClientByNickname n = some c) ↔
    ∃! c, s.LiveClient c ∧ (s.client c).isRegistered = true ∧
      toLower (s.client c).nickname = toLower n
  finds : ∀ n c, s.findClientByNickname n = some c ↔ s.LiveClient c ∧
    (s.client c).isRegistered = true ∧ toLower (s.client c).nickname = toLower n
  order : ∀ n (cs : List ClientPtr), cs.Perm s.clients.values →
    cs.find? (s.answersTo n) = s.findClientByNickname n

theorem nickname_uniqueness {s : Server} (h : ircserv.Reachable s) : s.NicknameUniqueness := by
  have hid := reachable_identities h
  have hfinds : ∀ n c, s.findClientByNickname n = some c ↔ s.LiveClient c ∧
      (s.client c).isRegistered = true ∧ toLower (s.client c).nickname = toLower n := by
    intro n c
    rw [findClientByNickname_eq, hid.find_iff (fun c => (liveClient_iff_mem s c).symm),
      answersTo_iff]
  constructor
  case valid => exact hid.nickname
  case unique =>
    intro c d hc hd hne hn _ heq
    exact hne (hid.unique c d hc hd hn heq)
  case found =>
    intro n
    constructor
    · intro ⟨c, hc⟩
      refine ⟨c, (hfinds n c).mp hc, fun d hd => ?_⟩
      have hd := (hfinds n d).mpr hd
      rw [hc] at hd
      exact (Option.some.inj hd).symm
    · intro ⟨c, hc, _⟩
      exact ⟨c, (hfinds n c).mpr hc⟩
  case finds => exact hfinds
  case order =>
    intro n cs hperm
    have hmem : ∀ c, c ∈ cs ↔ s.LiveClient c := by
      intro c
      rw [hperm.mem_iff, liveClient_iff_mem]
    apply Option.ext
    intro c
    rw [hid.find_iff hmem, hfinds, answersTo_iff]

/-- `[ann]` and `{ANN}` are the same nickname: the second client is refused it. -/
theorem nickname_uniqueness_brackets : ∃ s,
    session (registers 4 (ascii "[ann]") ++ registers 5 (ascii "\x7bANN\x7d")) = some s ∧
      s.findClientByNickname (ascii "[ANN]") = some 1 ∧ (s.client 2).nickname = [] ∧
      s.NicknameUniqueness := by
  obtain ⟨s, hs, hview⟩ := Option.map_eq_some_iff.mp (by decide +kernel :
    (session (registers 4 (ascii "[ann]") ++ registers 5 (ascii "\x7bANN\x7d"))).map
      (fun s => (s.findClientByNickname (ascii "[ANN]"), (s.client 2).nickname)) =
        some (some 1, []))
  obtain ⟨hfind, hnick⟩ := Prod.mk.injEq .. ▸ hview
  exact ⟨s, hs, hfind, hnick, nickname_uniqueness (session_reachable hs)⟩

end Server
end FtIrc
