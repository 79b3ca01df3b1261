/-
  File:      Nullgate/Lifecycle/RecoveryCode.lean
  Subject:   RECOVERY CODES (`network.rs`, `export_originator_key` and `import_originator_key` of
             `engine.rs`): the master key as a text, and back.

  The authority over a network is one key. Its code is the key in base32, in lower case behind a
  prefix; what is pasted is trimmed and read in either case, the prefix as it is.

  * `encodeRecoveryKey`, `decodeRecoveryKey`, `Inner.exportOriginatorKey`,
    `Device.importOriginatorKey`;
  * `Copy`: a code as it is pasted; `copy_ascii_iff`: in ASCII, the code in either case;
  * `decodeRecoveryKey_iff`: what is read are the copies of the code of the key, and nothing else;
  * **`import_ok_iff`**: an import succeeds with a copy of the code of a key of this network, and
    with nothing else; behind it the device holds the master key.
-/
import Mathlib.Data.List.TakeWhile
import Nullgate.Lifecycle.Jobs
import Nullgate.Membership.Ticket

namespace Nullgate

open Nullgate.Lib

/-! ## 1. The code -/

/-- `char::to_uppercase`, as far as ASCII and blanks go. -/
structure Uppercase where
  upper : Char → List Char
  ascii : ∀ c, c.toNat < 128 → upper c = [c.toUpper]
  blank : ∀ c, isWhitespace c = true → upper c = [c]

/-- `str::to_uppercase`: letter by letter. -/
def Uppercase.toUppercase (U : Uppercase) (l : List Char) : List Char := l.flatMap U.upper

theorem Uppercase.toUppercase_ascii (U : Uppercase) {l : List Char} (h : ∀ c ∈ l, c.toNat < 128) :
    U.toUppercase l = l.map Char.toUpper := by
  induction l with
  | nil => rfl
  | cons c l ih =>
    rw [toUppercase, List.flatMap_cons, U.ascii c (h c List.mem_cons_self), List.map_cons,
      ← ih fun c hc => h c (List.mem_cons_of_mem _ hc)]
    rfl

def RECOVERY_PREFIX : String := "ngkey1"

/-- **A recovery code**: `ngkey1<base32>`. -/
def encodeRecoveryKey (secret : SigningKey) : String :=
  String.ofList (RECOVERY_PREFIX.toList ++ (Base32.encode secret.toList).map Char.toLower)

/-- **Decode a recovery code back** to the originator secret. -/
def decodeRecoveryKey (U : Uppercase) (s : String) : Except String SigningKey :=
  match Ticket.stripPrefix RECOVERY_PREFIX.toList (trim s.toList) with
  | none => .error "not a Nullgate recovery code (missing ngkey1 prefix)"
  | some body =>
    match Base32.decode (U.toUppercase body) with
    | none => .error "recovery code is not valid base32"
    | some bytes =>
      match Bytes.ofList? 32 bytes with
      | none => .error "recovery code must be 32 bytes"
      | some secret => .ok secret

/-- **Export this device's originator master key.** -/
def Inner.exportOriginatorKey (i : Inner) : Except String String := do
  let secret ← originatorKey i
  .ok (encodeRecoveryKey secret)

/-- **Import a recovery code**, with no other call between the two locks of the state. -/
def Device.importOriginatorKey (C : Crates) (U : Uppercase) (d : Device) (i : Inputs)
    (recovery : String) : Except String Unit × Device :=
  match decodeRecoveryKey U recovery with
  | .error e => (.error e, d)
  | .ok secret =>
    match runCall C d i (.importKey secret) with
    | (d, .importSave cfg) =>
      match runCall C d i (.importSave cfg) with
      | (d, .importCommit cfg) => (.ok (), (runCall C d i (.importCommit cfg)).1)
      | (d, .returned (.error e)) => (.error e, d)
      | (d, _) => (.error "", d)
    | (d, .returned (.error e)) => (.error e, d)
    -- the call has no other outcome
    | (d, _) => (.error "", d)

/-! ## 2. What is read -/

/-- **A copy of a key's code**: blanks around it, and behind the prefix what is the code in upper
    case. -/
def Copy (U : Uppercase) (key : SigningKey) (s : String) : Prop :=
  ∃ body before after, U.toUppercase body = Base32.encode key.toList ∧
    (∀ c ∈ before ++ after, isWhitespace c = true) ∧
    s.toList = before ++ (RECOVERY_PREFIX.toList ++ body) ++ after

/-- What is trimmed off is blank. -/
theorem trim_split (s : List Char) :
    ∃ before after, s = before ++ trim s ++ after ∧
      ∀ c ∈ before ++ after, isWhitespace c = true := by
  have hblank : ∀ l : List Char, ∀ c ∈ l.takeWhile isWhitespace, isWhitespace c = true :=
    fun _ _ hc => List.mem_takeWhile_imp hc
  refine ⟨s.takeWhile isWhitespace,
    (((s.dropWhile isWhitespace).reverse).takeWhile isWhitespace).reverse, ?_, fun c hc => ?_⟩
  · rw [trim, List.append_assoc, ← List.reverse_append, List.takeWhile_append_dropWhile,
      List.reverse_reverse, List.takeWhile_append_dropWhile]
  · rcases List.mem_append.mp hc with hc | hc
    · exact hblank _ c hc
    · exact hblank _ c (List.mem_reverse.mp hc)

/-- A letter that is a symbol in upper case is one in the case it has. -/
theorem recased_of_upper {c : Char} (hascii : c.toNat < 128)
    (h : c.toUpper ∈ "ABCDEFGHIJKLMNOPQRSTUVWXYZ234567".toList) : Recased c.toUpper.toLower c := by
  have hall : ∀ n < 128, (Char.ofNat n).toUpper ∈ "ABCDEFGHIJKLMNOPQRSTUVWXYZ234567".toList →
      Char.ofNat n = (Char.ofNat n).toUpper.toLower.toLower ∨
        Char.ofNat n = (Char.ofNat n).toUpper.toLower.toUpper := by decide +kernel
  have hc := hall c.toNat hascii
  rw [Char.ofNat_toNat] at hc
  exact hc h

section Read

variable (U : Uppercase) {key : SigningKey} {s : String}

/-- **A copy in ASCII** is the code with each letter behind the prefix in either case. -/
theorem copy_ascii_iff (hascii : ∀ c ∈ s.toList, c.toNat < 128) :
    Copy U key s ↔ ∃ body before after,
      List.Forall₂ Recased ((Base32.encode key.toList).map Char.toLower) body ∧
      (∀ c ∈ before ++ after, isWhitespace c = true) ∧
      s.toList = before ++ (RECOVERY_PREFIX.toList ++ body) ++ after := by
  refine exists_congr fun body => exists_congr fun before => exists_congr fun after =>
    and_congr_left fun ⟨_, hs⟩ => ?_
  have hbody : ∀ c ∈ body, c.toNat < 128 := fun c hc => hascii c <| by
    rw [hs]
    simp [hc]
  rw [U.toUppercase_ascii hbody]
  constructor
  · intro hcode
    rw [← hcode, List.map_map, List.forall₂_map_left_iff]
    refine List.forall₂_same.mpr fun c hc => recased_of_upper (hbody c hc) ?_
    exact Base32.mem_encode (hcode ▸ List.mem_map_of_mem hc)
  · exact fun hbody => (recased_body (fun c => Base32.mem_encode) hbody).1

/-- There is no blank in what is a code in upper case. -/
theorem not_blank_of_upper {bytes : List UInt8} {body : List Char}
    (h : U.toUppercase body = Base32.encode bytes) : ∀ c ∈ body, isWhitespace c = false := by
  intro c hc
  rw [← Bool.not_eq_true]
  intro hblank
  have hin : c ∈ U.toUppercase body :=
    List.mem_flatMap.mpr ⟨c, hc, by rw [U.blank c hblank]; exact List.mem_cons_self⟩
  have hsymbols : ∀ c ∈ "ABCDEFGHIJKLMNOPQRSTUVWXYZ234567".toList, isWhitespace c = false :=
    List.all_iff_forall_prop.mp (by decide)
  rw [hsymbols c (Base32.mem_encode (h ▸ hin))] at hblank
  cases hblank

/-- A copy is read as the key. -/
theorem decode_of_copy (h : Copy U key s) : decodeRecoveryKey U s = .ok key := by
  obtain ⟨body, before, after, hbody, hblank, hs⟩ := h
  have htrim : trim s.toList = RECOVERY_PREFIX.toList ++ body := by
    rw [hs]
    refine trim_word (fun he => ?_) (fun c hc => ?_) hblank
    · cases (List.append_eq_nil_iff.mp he).1
    · rcases List.mem_append.mp hc with hc | hc
      · have hprefix : ∀ c ∈ RECOVERY_PREFIX.toList, isWhitespace c = false :=
          List.all_iff_forall_prop.mp (by decide)
        exact hprefix c hc
      · exact not_blank_of_upper U hbody c hc
  have hstrip : Ticket.stripPrefix RECOVERY_PREFIX.toList (RECOVERY_PREFIX.toList ++ body) =
      some body := by simp [Ticket.stripPrefix]
  rw [decodeRecoveryKey, htrim, hstrip]
  simp only [hbody, Base32.decode_encode, Bytes.ofList?_toList]

/-- **What is read as a key is a copy of its code**, and nothing else. -/
theorem decodeRecoveryKey_iff : decodeRecoveryKey U s = .ok key ↔ Copy U key s := by
  refine ⟨fun h => ?_, decode_of_copy U⟩
  obtain ⟨before, after, hs, hblank⟩ := trim_split s.toList
  unfold decodeRecoveryKey at h
  split at h
  · cases h
  · rename_i body hstrip
    split at h
    · cases h
    · rename_i bytes hbytes
      split at h
      · cases h
      · rename_i secret hsecret
        obtain rfl := Except.ok.inj h
        have htrim : trim s.toList = RECOVERY_PREFIX.toList ++ body := by
          unfold Ticket.stripPrefix at hstrip
          split at hstrip
          · rename_i htake
            obtain rfl := Option.some.inj hstrip
            refine (List.take_append_drop RECOVERY_PREFIX.toList.length _).symm.trans ?_
            rw [htake]
          · cases hstrip
        have hkey : bytes = secret.toList := by
          unfold Bytes.ofList? at hsecret
          split at hsecret
          · rw [← Option.some.inj hsecret]
          · cases hsecret
        rw [htrim] at hs
        exact ⟨body, before, after, by rw [← Base32.encode_of_decode hbytes, hkey], hblank, hs⟩

/-- A code is a copy of itself. -/
theorem copy_self (key : SigningKey) : Copy U key (encodeRecoveryKey key) := by
  have hsymbols : ∀ c ∈ "ABCDEFGHIJKLMNOPQRSTUVWXYZ234567".toList,
      c.toLower.toNat < 128 ∧ c.toLower.toUpper = c := List.all_iff_forall_prop.mp (by decide)
  have hcode : ∀ c ∈ Base32.encode key.toList, c.toLower.toNat < 128 ∧ c.toLower.toUpper = c :=
    fun c hc => hsymbols c (Base32.mem_encode hc)
  refine ⟨(Base32.encode key.toList).map Char.toLower, [], [], ?_, by simp, ?_⟩
  · rw [U.toUppercase_ascii fun c hc => ?_, List.map_map]
    · exact (List.map_congr_left fun c hc => (hcode c hc).2).trans (List.map_id _)
    · obtain ⟨symbol, hsymbol, rfl⟩ := List.mem_map.mp hc
      exact (hcode symbol hsymbol).1
  · rw [encodeRecoveryKey, String.toList_ofList, List.nil_append, List.append_nil]

end Read

/-! ## 3. The import -/

variable (C : Crates) (U : Uppercase) {d : Device} {i : Inputs} {s : String} {key : SigningKey}
  {cfg : StoredConfig}

/-- The config with the master key in it. -/
def StoredConfig.withKey (cfg : StoredConfig) (key : SigningKey) : StoredConfig :=
  { cfg with originatorSecret := some key }

/-- With the key in the config, there is no write that can fail unnoticed. -/
theorem saving_withKey (saving : Saving) :
    saving.error? (cfg.withKey key) = none ↔ saving = .done := by
  cases saving with
  | done => simp [Saving.error?]
  | configFails lost => simp [Saving.error?]
  | secretFails lost => simp [Saving.error?]
  | originatorFails lost => simp [Saving.error?, StoredConfig.withKey]

/-- What a code that can be read comes to. -/
theorem import_of_decode (h : decodeRecoveryKey U s = .ok key) :
    d.importOriginatorKey C U i s =
      match d.config with
      | none => (.error "no network on this device", d)
      | some cfg =>
        if C.verifyingKey key ≠ cfg.originatorId then
          (.error "this recovery code is for a different network", d)
        else
          match i.saving.error? (cfg.withKey key) with
          | some e => (.error e, (d.saveConfig (cfg.withKey key) i.saving).2)
          | none => (.ok (), { (d.saveConfig (cfg.withKey key) i.saving).2 with
              config := some (cfg.withKey key) }) := by
  unfold Device.importOriginatorKey
  rw [h]
  cases hcfg : d.config with
  | none => simp [runCall, hcfg]
  | some cfg =>
    by_cases hkey : C.verifyingKey key = cfg.originatorId
    · cases herr : i.saving.error? (cfg.withKey key) with
      | none =>
        have herr' : i.saving.error? { cfg with originatorSecret := some key } = none := herr
        simp [runCall, hcfg, hkey, Device.saveConfig, herr', StoredConfig.withKey]
      | some e =>
        have herr' : i.saving.error? { cfg with originatorSecret := some key } = some e := herr
        simp [runCall, hcfg, hkey, Device.saveConfig, herr', StoredConfig.withKey]
    · simp [runCall, hcfg, hkey]

/-- **A copy of the code of a key of this network is accepted**, and puts the key into the config,
    in memory and on disk. -/
theorem import_copy (hcfg : d.config = some cfg) (hkey : C.verifyingKey key = cfg.originatorId)
    (hsaving : i.saving = .done) (hcopy : Copy U key s) :
    d.importOriginatorKey C U i s =
      (.ok (), { d with
        config := some (cfg.withKey key)
        disk := (cfg.withKey key).onDisk
        cborTorn := false }) := by
  rw [import_of_decode C U (decode_of_copy U hcopy), hcfg]
  dsimp only
  rw [if_neg (fun hne => hne hkey), (saving_withKey i.saving).mpr hsaving, hsaving]
  rfl

/-- **Accepted, or refused**, and then nothing changes but what a failed write leaves on disk. -/
theorem import_cases :
    (∃ cfg key, d.config = some cfg ∧ C.verifyingKey key = cfg.originatorId ∧ Copy U key s ∧
      i.saving = .done) ∨
    ∃ e disk cborTorn, d.importOriginatorKey C U i s = (.error e, { d with disk, cborTorn }) ∧
      (i.saving = .done → d.importOriginatorKey C U i s = (.error e, d)) := by
  cases hdecode : decodeRecoveryKey U s with
  | error e =>
    have himport : d.importOriginatorKey C U i s = (.error e, d) := by
      rw [Device.importOriginatorKey, hdecode]
    exact .inr ⟨e, d.disk, d.cborTorn, himport, fun _ => himport⟩
  | ok key =>
    have himport := @import_of_decode C U d i s key hdecode
    rcases Option.eq_none_or_eq_some d.config with hcfg | ⟨cfg, hcfg⟩
    · rw [hcfg] at himport
      exact .inr ⟨_, d.disk, d.cborTorn, himport, fun _ => himport⟩
    · rw [hcfg] at himport
      dsimp only at himport
      by_cases hkey : C.verifyingKey key = cfg.originatorId
      · by_cases hsaving : i.saving = .done
        · exact .inl ⟨cfg, key, hcfg, hkey, (decodeRecoveryKey_iff U).mp hdecode, hsaving⟩
        · obtain ⟨e, he⟩ := Option.ne_none_iff_exists'.mp
            (mt (@saving_withKey key cfg i.saving).mp hsaving)
          rw [if_neg (fun hne => hne hkey), he] at himport
          exact .inr ⟨e, _, _, himport, fun h => absurd h hsaving⟩
      · rw [if_pos hkey] at himport
        exact .inr ⟨_, d.disk, d.cborTorn, himport, fun _ => himport⟩

/-- **When an import succeeds**: exactly if the device is in a network, the text is a copy of the
    code of a key of it, and all is written. Then the device holds the master key. If it fails,
    nothing changes but what a failed write leaves on disk. What a device that holds the master key
    exports is such a code. -/
theorem import_ok_iff :
    ((d.importOriginatorKey C U i s).1 = .ok () ↔
      ∃ cfg key, d.config = some cfg ∧ C.verifyingKey key = cfg.originatorId ∧ Copy U key s ∧
        i.saving = .done) ∧
    (∀ cfg key, d.config = some cfg → C.verifyingKey key = cfg.originatorId → Copy U key s →
      i.saving = .done →
        HoldsMasterKey C (d.importOriginatorKey C U i s).2.toInner (cfg.withKey key) key) ∧
    ((d.importOriginatorKey C U i s).1 ≠ .ok () →
      ∃ disk cborTorn, (d.importOriginatorKey C U i s).2 = { d with disk, cborTorn } ∧
        (i.saving = .done → (d.importOriginatorKey C U i s).2 = d)) ∧
    ∀ (j : Inner) (cfg : StoredConfig) (key : SigningKey), HoldsMasterKey C j cfg key →
      ∃ code, j.exportOriginatorKey = .ok code ∧ Copy U key code := by
  refine ⟨⟨fun hok => ?_, ?_⟩, fun cfg key hcfg hkey hcopy hsaving => ?_, fun hfails => ?_,
    fun j cfg key hj => ⟨encodeRecoveryKey key, ?_, copy_self U key⟩⟩
  · rcases import_cases C U with h | ⟨e, disk, cborTorn, himport, -⟩
    · exact h
    · rw [himport] at hok
      cases hok
  · rintro ⟨cfg, key, hcfg, hkey, hcopy, hsaving⟩
    rw [import_copy C U hcfg hkey hsaving hcopy]
  · rw [import_copy C U hcfg hkey hsaving hcopy]
    exact ⟨rfl, rfl, hkey⟩
  · rcases import_cases C U with ⟨cfg, key, hcfg, hkey, hcopy, hsaving⟩ |
      ⟨e, disk, cborTorn, himport, hsame⟩
    · rw [import_copy C U hcfg hkey hsaving hcopy] at hfails
      exact absurd rfl hfails
    · exact ⟨disk, cborTorn, by rw [himport], fun hsaving => by rw [hsame hsaving]⟩
  · rw [Inner.exportOriginatorKey, hj.originatorKey_eq]
    rfl

/-- An upper case that knows ASCII. -/
def Uppercase.plain : Uppercase where
  upper c := [c.toUpper]
  ascii _ _ := rfl
  blank c h := by
    refine congrArg (fun c => [c]) (dif_neg ?_)
    simp only [isWhitespace, Bool.or_eq_true, Bool.and_eq_true, decide_eq_true_eq,
      UInt32.le_iff_toNat_le, ← UInt32.toNat_inj, Char.reduceVal, UInt32.reduceToNat] at h ⊢
    omega

/-- A Peer of the sample's network. -/
def Sample.plainMember : Device where
  deviceKey := Sample.key 3
  myId := Sample.key 3
  config := some (Sample.stored none)

/-- It restores the originator's access. -/
theorem import_ok_iff_sample :
    (Sample.plainMember.importOriginatorKey .plain .plain {}
      (encodeRecoveryKey (Sample.key 1))).1 = .ok () :=
  (import_ok_iff .plain .plain).1.mpr
    ⟨Sample.stored none, Sample.key 1, rfl, rfl, copy_self .plain _, rfl⟩

/-- Unlike the letters behind it, the prefix is not read in capitals. -/
example :
    (decodeRecoveryKey .plain (encodeRecoveryKey (Sample.key 1)).toUpper).toOption = none := by
  decide +kernel

end Nullgate
