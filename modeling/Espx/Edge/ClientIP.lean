import Mathlib.Data.List.DropRight
import Espx.Edge.Blocklist

/-!
# The address of a client behind proxies

From a trusted peer the address is a public `X-Real-IP`, or else the last public element of
`X-Forwarded-For`, so that what a client puts before the entries of the proxies is not looked at.
-/

namespace Espx.Edge

open List

/-- The functions on addresses: `net.ParseIP`, the private ranges, `IP.String` and the host of
`net.SplitHostPort`. -/
structure AddressLibrary (IP : Type*) where
  parseIP : List UInt8 → Option IP
  isPrivate : IP → Bool
  string : IP → List UInt8
  peerHost : List UInt8 → List UInt8
  parseIP_nil : parseIP [] = none

/-- A request, as far as it is read. -/
structure ProxyRequest where
  remoteAddr : List UInt8
  xRealIP : List UInt8
  xff : List UInt8

/-- The spaces of `unicode.IsSpace` in UTF-8. -/
def spaces : List (List UInt8) :=
  [[9], [10], [11], [12], [13], [32], [0xc2, 0x85], [0xc2, 0xa0], [0xe1, 0x9a, 0x80]] ++
    (range 11).map (fun i => [0xe2, 0x80, 0x80 + i.toUInt8]) ++
    [[0xe2, 0x80, 0xa8], [0xe2, 0x80, 0xa9], [0xe2, 0x80, 0xaf], [0xe2, 0x81, 0x9f], [0xe3, 0x80, 0x80]]

/-- The words at the start of a text are left out, at most as many as the fuel. -/
def trimStart (words : List (List UInt8)) : ℕ → List UInt8 → List UInt8
  | 0, text => text
  | fuel + 1, text =>
    match words.find? (·.isPrefixOf text) with
    | none => text
    | some word => trimStart words fuel (text.drop word.length)

/-- `strings.TrimSpace`. -/
def trimSpace (text : List UInt8) : List UInt8 :=
  let left := trimStart spaces text.length text
  (trimStart (spaces.map reverse) left.length left.reverse).reverse

/-- A space behind a text is left out with a text of spaces. -/
theorem trimStart_concat {n : ℕ} {text : List UInt8} (h : text.length ≤ n) :
    trimStart spaces (n + 1) (text ++ [32]) =
      if trimStart spaces n text = [] then [] else trimStart spaces n text ++ [32] := by
  have hlast : ∀ word ∈ spaces, word.getLast? = some 32 → word = [32] := by decide
  have hpos : ∀ word ∈ spaces, word ≠ [] := by decide
  induction n generalizing text with
  | zero =>
    obtain rfl := length_eq_zero_iff.mp (Nat.le_zero.mp h)
    rfl
  | succ n ih =>
    rcases eq_or_ne text [] with rfl | hne
    · rfl
    have hsame : ∀ word ∈ spaces, word.isPrefixOf (text ++ [32]) = word.isPrefixOf text := by
      intro word hword
      rw [Bool.eq_iff_iff, isPrefixOf_iff_prefix, isPrefixOf_iff_prefix, prefix_concat_iff, or_iff_right]
      rintro rfl
      exact hne (by simpa using hlast _ hword (by simp))
    rw [trimStart, ← head?_filter, filter_congr hsame, head?_filter, trimStart]
    cases hword : spaces.find? (·.isPrefixOf text) with
    | none => simp [hne]
    | some word =>
      have hlen := length_pos_of_ne_nil (hpos word (mem_of_find?_eq_some hword))
      have hmatch := find?_some hword
      have hstart : word <+: text := isPrefixOf_iff_prefix.mp hmatch
      dsimp only
      rw [drop_append_of_le_length hstart.length_le]
      exact ih (by rw [length_drop]; omega)

theorem trimSpace_cons (text : List UInt8) : trimSpace (32 :: text) = trimSpace text := rfl

/-- A space behind a text does not count. -/
theorem trimSpace_concat (text : List UInt8) : trimSpace (text ++ [32]) = trimSpace text := by
  unfold trimSpace
  rw [length_append, length_singleton, trimStart_concat le_rfl]
  split
  · rename_i hblank
    rw [hblank]
  · dsimp only
    rw [reverse_concat, length_append, length_singleton]
    rfl

/-- The spaces at both ends are left out. -/
def trimBlanks (text : List UInt8) : List UInt8 := (text.dropWhile (· = 32)).rdropWhile (· = 32)

namespace AddressLibrary

variable {IP : Type*} (net : AddressLibrary IP)

/-- `publicClientIP`. -/
def publicClientIP (text : List UInt8) : Option (List UInt8) :=
  match net.parseIP (trimSpace text) with
  | none => none
  | some ip => if net.isPrivate ip then none else some (net.string ip)

/-- The body of the loop of `lastPublicXFF` at the end of an element. -/
def publicElement (xff : List UInt8) (start last : ℕ) : Option (List UInt8) :=
  let text := trimBlanks ((xff.take last).drop start)
  if text = [] then none else net.publicClientIP text

/-- The loop of `lastPublicXFF`, from the index before `start` down to -1. -/
def lastPublicLoop (xff : List UInt8) : ℕ → ℕ → Option (List UInt8)
  | 0, last => net.publicElement xff 0 last
  | i + 1, last =>
    if xff[i]? = some 44 then (net.publicElement xff (i + 1) last).or (lastPublicLoop xff i i)
    else lastPublicLoop xff i last

/-- `lastPublicXFF`. -/
def lastPublicXFF (xff : List UInt8) : Option (List UInt8) :=
  net.lastPublicLoop xff xff.length xff.length

/-- `FromProxyPeer`, with `Trusted.Contains` on an address. -/
def fromProxyPeer (peerIP xff xRealIP : List UInt8) (trusted : IP → Bool) : List UInt8 :=
  if (net.parseIP peerIP).any trusted then
    ((if xRealIP = [] then none else net.publicClientIP xRealIP).or
      (if xff = [] then none else net.lastPublicXFF xff)).getD peerIP
  else peerIP

/-- `FromRequest`: the same from the host of the remote address. -/
def fromRequest (trusted : IP → Bool) : Option ProxyRequest → List UInt8
  | none => []
  | some r => net.fromProxyPeer (net.peerHost r.remoteAddr) r.xff r.xRealIP trusted

/-- Nothing is lost when the blanks are left out before. -/
theorem trimSpace_trimBlanks (text : List UInt8) : trimSpace (trimBlanks text) = trimSpace text := by
  have hleft (text : List UInt8) : trimSpace (text.dropWhile (· = 32)) = trimSpace text := by
    induction text with
    | nil => rfl
    | cons b rest ih =>
      by_cases hb : b = 32
      · rw [dropWhile_cons_of_pos (by simpa using hb), ih, hb, trimSpace_cons]
      · rw [dropWhile_cons_of_neg (by simpa using hb)]
  have hright (text : List UInt8) : trimSpace (text.rdropWhile (· = 32)) = trimSpace text := by
    induction text using reverseRecOn with
    | nil => rfl
    | append_singleton rest b ih =>
      by_cases hb : b = 32
      · rw [rdropWhile_concat_pos _ _ _ (by simpa using hb), ih, hb, trimSpace_concat]
      · rw [rdropWhile_concat_neg _ _ _ (by simpa using hb)]
  rw [trimBlanks, hright, hleft]

/-- An element is public with its spaces or without them. -/
theorem publicElement_eq (before text after : List UInt8) :
    net.publicElement (before ++ text ++ after) before.length (before ++ text).length =
      net.publicClientIP text := by
  rw [publicElement, take_left, drop_left]
  split
  · rename_i hblank
    rw [publicClientIP, ← trimSpace_trimBlanks, hblank, show trimSpace [] = [] from rfl, net.parseIP_nil]
  · rw [publicClientIP, trimSpace_trimBlanks, publicClientIP]

/-- The loop at a byte, with an element behind it. -/
theorem lastPublicLoop_step (before : List UInt8) (c : UInt8) (text after : List UInt8) :
    net.lastPublicLoop (before ++ [c] ++ text ++ after) (before ++ [c]).length
        (before ++ [c] ++ text).length =
      if c = 44 then (net.publicClientIP text).or
        (net.lastPublicLoop (before ++ [c] ++ text ++ after) before.length before.length)
      else net.lastPublicLoop (before ++ [c] ++ text ++ after) before.length
        (before ++ [c] ++ text).length := by
  have helem := net.publicElement_eq (before ++ [c]) text after
  have hat : (before ++ [c] ++ text ++ after)[before.length]? = some c := by simp
  rw [length_append, length_singleton] at helem ⊢
  rw [lastPublicLoop, hat, helem]
  simp

/-- The last public one of the elements. -/
def lastPublic (text : List UInt8) : Option (List UInt8) :=
  (text.splitOnP (· = 44)).reverse.findSome? net.publicClientIP

theorem splitOnP_element {y : List UInt8} (hy : 44 ∉ y) : y.splitOnP (· = 44) = [y] :=
  splitOnP_eq_singleton fun _ hb => decide_eq_false fun h => hy (h ▸ hb)

/-- The loop in what follows a comma, before an element without commas. -/
theorem lastPublicLoop_eq (a x y z : List UInt8) (hy : 44 ∉ y) :
    net.lastPublicLoop (a ++ [44] ++ x ++ y ++ z) (a ++ [44] ++ x).length (a ++ [44] ++ x ++ y).length =
      (net.lastPublic (x ++ y)).or (net.lastPublicLoop (a ++ [44] ++ x ++ y ++ z) a.length a.length) := by
  induction x using reverseRecOn generalizing y z with
  | nil =>
    rw [append_nil, nil_append, lastPublicLoop_step, if_pos rfl, lastPublic, splitOnP_element hy]
    simp
  | append_singleton x c ih =>
    rw [← append_assoc, lastPublicLoop_step]
    by_cases hc : c = 44
    · subst hc
      have hrest := ih [] ([44] ++ y ++ z) not_mem_nil
      have hsplit : net.lastPublic (x ++ [44] ++ y) = (net.publicClientIP y).or (net.lastPublic x) := by
        rw [lastPublic, append_assoc, singleton_append, splitOnP_append_cons _ _ (by rfl),
          splitOnP_element hy, reverse_append, findSome?_append, lastPublic]
        simp
      rw [if_pos rfl, hsplit]
      simp only [append_nil, append_assoc] at hrest ⊢
      rw [hrest, Option.or_assoc]
    · have hrest := ih ([c] ++ y) z (by simp [hy, Ne.symm hc])
      rw [if_neg hc]
      simp only [append_assoc] at hrest ⊢
      exact hrest

/-- The headers count from a trusted peer only, and nothing before the last public element of
`X-Forwarded-For` does. -/
theorem forwarded_address (trusted : IP → Bool) :
    (∀ peerIP xff xRealIP, (net.parseIP peerIP).any trusted = false →
        net.fromProxyPeer peerIP xff xRealIP trusted = peerIP) ∧
      (∀ r : ProxyRequest, (net.parseIP (net.peerHost r.remoteAddr)).any trusted = false →
        net.fromRequest trusted (some r) = net.peerHost r.remoteAddr) ∧
      ∀ b xRealIP, (∃ text ∈ b.splitOnP (· = 44), (net.publicClientIP text).isSome) →
        net.publicClientIP xRealIP = none → ∃ ip, net.lastPublic b = some ip ∧
          (∀ a peerIP, (net.parseIP peerIP).any trusted →
            net.fromProxyPeer peerIP (a ++ [44] ++ b) xRealIP trusted = ip) ∧
          ∀ a remoteAddr, (net.parseIP (net.peerHost remoteAddr)).any trusted →
            net.fromRequest trusted (some ⟨remoteAddr, xRealIP, a ++ [44] ++ b⟩) = ip := by
  have huntrusted (peerIP xff xRealIP : List UInt8) (h : (net.parseIP peerIP).any trusted = false) :
      net.fromProxyPeer peerIP xff xRealIP trusted = peerIP := by
    simp [fromProxyPeer, h]
  refine ⟨huntrusted, fun r h => huntrusted _ _ _ h, fun b xRealIP hb hreal => ?_⟩
  obtain ⟨ip, hip⟩ : ∃ ip, net.lastPublic b = some ip := by
    simpa [lastPublic, ← Option.isSome_iff_exists] using hb
  have hxff (a : List UInt8) : net.lastPublicXFF (a ++ [44] ++ b) = some ip := by
    have hloop := net.lastPublicLoop_eq a b [] [] not_mem_nil
    simp only [append_nil] at hloop
    rw [lastPublicXFF, hloop, hip, Option.some_or]
  have htrusted (a peerIP : List UInt8) (h : (net.parseIP peerIP).any trusted) :
      net.fromProxyPeer peerIP (a ++ [44] ++ b) xRealIP trusted = ip := by
    rw [fromProxyPeer, if_pos h, hxff, hreal, ite_self, Option.none_or, if_neg (by simp), Option.getD_some]
  exact ⟨ip, hip, htrusted, fun a remoteAddr h => htrusted a _ h⟩

end AddressLibrary

/-- Addresses of version four, those of the network 10 private. -/
def sampleAddresses : AddressLibrary UInt32 where
  parseIP := parseHost
  isPrivate := (· >>> 24 = 10)
  string ip := (intercalate ".".toList ([24, 16, 8, 0].map fun places : UInt32 =>
    ((ip >>> places) % 256).toNat.repr.toList)).map fun c => UInt8.ofNat c.toNat
  peerHost := takeWhile (· ≠ 58)
  parseIP_nil := rfl

/-- The bytes of a text. -/
def asciiBytes (text : String) : List UInt8 := text.toList.map fun c => UInt8.ofNat c.toNat

/-- What a client and two proxies have written, from a peer in the private network. -/
theorem forwarded_address_second :
    ∃ ip, sampleAddresses.lastPublic (asciiBytes " 9.9.9.9, 10.0.0.2") = some ip ∧
      ip = asciiBytes "9.9.9.9" ∧
      sampleAddresses.fromProxyPeer (asciiBytes "10.0.0.1")
        (asciiBytes "8.8.4.4" ++ [44] ++ asciiBytes " 9.9.9.9, 10.0.0.2") [] (· >>> 24 = 10) = ip := by
  obtain ⟨ip, hip, hproxy, -⟩ := (sampleAddresses.forwarded_address (· >>> 24 = 10)).2.2
    (asciiBytes " 9.9.9.9, 10.0.0.2") [] ⟨asciiBytes " 9.9.9.9", by decide +kernel, by decide +kernel⟩
    (by decide)
  exact ⟨ip, hip, Option.some.inj (hip.symm.trans (by decide +kernel)),
    hproxy (asciiBytes "8.8.4.4") (asciiBytes "10.0.0.1") (by decide +kernel)⟩

end Espx.Edge
