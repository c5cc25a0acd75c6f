import PackageSigning.Proofs.Lineage.Format
import PackageSigning.Proofs.Lineage.Rejection

/-!
# What files that hold no lineage are refused as

Fields that do not add up are faults of the format at every level: readers of fields fail with
nothing else (`Reader.FormatOnly`). What is in the fields is looked at by others, and some of
what they fail with is passed on as it is: a certificate of a version that is not known, a key
that cannot be extracted from a certificate, or that cannot be used with an algorithm
for keys of its kind. Exactly these files are refused with something else than a fault of the
format (`refused_as_format_unless_escaping`).
-/

namespace PackageSigning

/-- One of some mishaps. -/
def OfMishaps (ms : List Mishap) (fault : Fault) : Prop := ∃ m ∈ ms, fault = .mishap m

theorem OfMishaps.mem {ms : List Mishap} {m : Mishap} (h : OfMishaps ms (.mishap m)) : m ∈ ms := by
  obtain ⟨_, hm, ⟨⟩⟩ := h
  exact hm

/-- The faults of the format of lineages, and some mishaps. -/
inductive FormatOr (mishaps : List Mishap) : Fault → Prop
  | format (problem : LineageFormatProblem) : FormatOr mishaps (.lineageFormat problem)
  | mishap {m : Mishap} (h : m ∈ mishaps) : FormatOr mishaps (.mishap m)

namespace FormatOr
variable {ms ns : List Mishap} {fault : Fault}

theorem mono (h : ∀ m ∈ ms, m ∈ ns) (hf : FormatOr ms fault) : FormatOr ns fault := by
  cases hf with
  | format problem => exact .format problem
  | mishap hm => exact .mishap (h _ hm)

theorem of_mishaps (h : ∀ m ∈ ms, m ∈ ns) (hf : OfMishaps ms fault) : FormatOr ns fault := by
  obtain ⟨m, hm, rfl⟩ := hf
  exact .mishap (h m hm)

theorem mem {m : Mishap} (h : FormatOr ms (.mishap m)) : m ∈ ms := by
  cases h with
  | mishap hm => exact hm

end FormatOr

namespace Notary

/-- What reading certificates, extracting keys and using them fails with, if it fails: values that
make no sense, certificates of a version that is not known, and keys of a kind that is not
supported. -/
structure FailsAsDocumented (n : Notary) : Prop where
  certificate : ∀ b, FailsOnly (OfMishaps [.badValue, .unknownVersion]) (n.readCertificate b)
  publicKey : ∀ c, FailsOnly (OfMishaps [.badValue, .unsupported]) (n.publicKey c)
  check : ∀ a key signature message,
    FailsOnly (OfMishaps [.badValue]) (n.check a key signature message)

theorem standard_failsAsDocumented (noise : Bytes) : (standard noise).FailsAsDocumented where
  certificate b := by
    change FailsOnly _ (CertificateBundle.one b)
    unfold CertificateBundle.one
    split
    · exact .ok _
    · next refusal _ => cases refusal <;> exact .error ⟨_, by simp, rfl⟩
  publicKey c := by
    change FailsOnly _ c.publicKey
    unfold Certificate.publicKey
    split
    · exact .ok _
    · exact .error ⟨_, by simp, rfl⟩
    · exact .error ⟨_, by simp, rfl⟩
  check a key signature message := by
    change FailsOnly _ (if a.hasRoom key then _ else _)
    split
    · exact .ok _
    · exact .error ⟨_, by simp, rfl⟩

end Notary

/-! ## Fields -/

namespace LineageField.Reader
variable {α β : Type} {reader : Reader α}

/-- What a reader fails with is a fault of the format. -/
def FormatOnly (reader : Reader α) : Prop := ∀ b, FailsOnly (FormatOr []) (reader.run b)

namespace FormatOnly

theorem pure (a : α) : FormatOnly (Pure.pure a : Reader α) := fun _ => .ok _

theorem bind {f : α → Reader β} (hr : FormatOnly reader) (hf : ∀ a, FormatOnly (f a)) :
    FormatOnly (reader >>= f) := by
  intro b
  rw [StateT.run_bind]
  exact .bind (hr b) fun p _ => hf p.1 p.2

theorem lift {x : Except Fault α} (h : FailsOnly (FormatOr []) x) :
    FormatOnly (liftM x : Reader α) := by
  intro b
  change FailsOnly _ (x >>= fun a => Pure.pure (a, b))
  exact .bind h fun _ _ => .pure _

theorem run_ne_mishap (h : FormatOnly reader) {b : Bytes} {m : Mishap} :
    reader.run b ≠ .error (.mishap m) :=
  fun hm => nomatch (h b _ hm).mem

end FormatOnly

theorem take_formatOnly (count : Nat) : FormatOnly (take count) := by
  intro b
  change FailsOnly _ (take count b)
  unfold take
  split
  · exact .ok _
  · exact .error (.format _)

theorem number_formatOnly : FormatOnly number := .bind (take_formatOnly 4) fun _ => .pure _

theorem counted_formatOnly : FormatOnly counted :=
  .bind number_formatOnly fun _ => take_formatOnly _

theorem finish_formatOnly : FormatOnly finish := by
  intro b
  cases b with
  | nil => exact .ok _
  | cons x b => exact .error (.format _)

theorem FormatOnly.whole (h : FormatOnly reader) (b : Bytes) :
    FailsOnly (FormatOr []) (reader.whole b) :=
  .bind (h b) fun p _ => .bind (finish_formatOnly p.2) fun _ _ => .pure _

end LineageField.Reader

open LineageField

/-! ## Nodes -/

namespace LineageNode
variable {notary : Notary} {m : Mishap}

theorem statementFields_formatOnly : Reader.FormatOnly statementFields :=
  .bind Reader.counted_formatOnly fun _ => .bind Reader.number_formatOnly fun _ => .pure _

theorem fields_formatOnly : Reader.FormatOnly fields :=
  .bind Reader.counted_formatOnly fun b =>
    .bind (.lift (statementFields_formatOnly.whole b)) fun _ =>
    .bind Reader.number_formatOnly fun _ => .bind Reader.number_formatOnly fun _ =>
    .bind Reader.counted_formatOnly fun _ => .pure _

/-- A malformed certificate is a fault of the format, but not one of an unknown version. -/
theorem readCertificate_fails (documented : notary.FailsAsDocumented) (b : Bytes) :
    FailsOnly (FormatOr [.unknownVersion]) (readCertificate notary b) := by
  unfold readCertificate
  split
  · exact .error (.format _)
  · next hne =>
    intro fault h
    obtain ⟨m, hm, rfl⟩ := documented.certificate b fault h
    rcases List.mem_cons.mp hm with rfl | hm
    · exact absurd h hne
    · exact .mishap hm

theorem readCertificate_eq_unknownVersion {b : Bytes} :
    readCertificate notary b = .error (.mishap .unknownVersion) ↔
      notary.readCertificate b = .error (.mishap .unknownVersion) := by
  unfold readCertificate
  split
  · next h => simp [h]
  · rfl

/-- The node that some bytes are has a certificate of a version that is not known. -/
def HasUnknownVersion (notary : Notary) (n : LineageNode) : Prop :=
  notary.readCertificate n.certificate.der = .error (.mishap .unknownVersion)

theorem decode_fails (documented : notary.FailsAsDocumented) (b : Bytes) :
    FailsOnly (FormatOr [.unknownVersion]) (decode notary b) :=
  .bind ((fields_formatOnly.whole b).mono fun _ => .mono nofun) fun _ _ =>
    .bind (readCertificate_fails documented _) fun _ _ => .pure _

theorem decode_eq_unknownVersion {b : Bytes} :
    decode notary b = .error (.mishap .unknownVersion) ↔
      ∃ n, HasUnknownVersion notary n ∧ n.encode = .ok b := by
  have hfields : fields.whole b ≠ .error (.mishap .unknownVersion) :=
    fun h => nomatch (fields_formatOnly.whole b _ h).mem
  unfold decode
  rw [bind_eq_error]
  simp only [hfields, false_or, Reader.whole_eq_ok, bind_eq_error,
    readCertificate_eq_unknownVersion]
  constructor
  · rintro ⟨p, hp, h | ⟨_, _, h⟩⟩
    · obtain ⟨n, e, rfl, he, rfl⟩ := fields_run_eq_ok.mp hp
      rw [List.append_nil]
      exact ⟨n, h, he⟩
    · cases h
  · rintro ⟨n, h, he⟩
    exact ⟨parts n, fields_run_eq_ok.mpr ⟨n, b, rfl, he, (List.append_nil b).symm⟩, .inl h⟩

end LineageNode

namespace Lineage
variable {notary : Notary} {m : Mishap}

/-! ## Lists of nodes -/

/-- Fuel for some bytes is as good as more. -/
theorem decodeNodes_eq_of_fuel {fuel fuel' : Nat} {b : Bytes} (h : b.length ≤ fuel)
    (h' : b.length ≤ fuel') : decodeNodes notary fuel b = decodeNodes notary fuel' b := by
  induction fuel generalizing fuel' b with
  | zero =>
    obtain rfl := List.length_eq_zero_iff.mp (Nat.le_zero.mp h)
    cases fuel' <;> rfl
  | succ fuel ih =>
    cases b with
    | nil => cases fuel' <;> rfl
    | cons x b =>
      cases fuel' with
      | zero => cases h'
      | succ fuel' =>
        -- what is behind a node is shorter, so the fuel that is left lasts for it
        have hrest (enc rest : Bytes) (hr : Reader.counted.run (x :: b) = .ok (enc, rest)) :
            decodeNodes notary fuel rest = decodeNodes notary fuel' rest := by
          obtain ⟨e, he, hb⟩ := (Reader.counted_undoes _ _ _).mp hr
          exact ih (length_behind_counted he hb h) (length_behind_counted he hb h')
        unfold decodeNodes
        cases hr : Reader.counted.run (x :: b) with
        | error fault => rfl
        | ok p =>
          obtain ⟨enc, rest⟩ := p
          change (LineageNode.decode notary enc >>= fun n => decodeNodes notary fuel rest >>= _) =
            LineageNode.decode notary enc >>= fun n => decodeNodes notary fuel' rest >>= _
          rw [hrest enc rest hr]

theorem decodeNodes_fails (documented : notary.FailsAsDocumented) (fuel : Nat) (b : Bytes) :
    FailsOnly (FormatOr [.unknownVersion]) (decodeNodes notary fuel b) := by
  induction fuel generalizing b with
  | zero =>
    cases b with
    | nil => exact .ok _
    | cons x b => exact .error (.format _)
  | succ fuel ih =>
    cases b with
    | nil => exact .ok _
    | cons x b =>
      exact .bind ((Reader.counted_formatOnly _).mono fun _ => .mono nofun) fun p _ =>
        .bind (LineageNode.decode_fails documented p.1) fun _ _ => .bind (ih p.2) fun _ _ => .pure _

/-- Bytes that hold nodes with known certificates and, behind them, one whose certificate is of an
unknown version. -/
def HoldsUnknownVersion (notary : Notary) (b : Bytes) : Prop :=
  ∃ front n written rest, (∀ x ∈ front, notary.Knows x.certificate) ∧ n.HasUnknownVersion notary ∧
    encodeNodes (front ++ [n]) = .ok written ∧ b = written ++ rest

/-- The certificate of an unknown version is in the first node, or in those behind it. -/
theorem holdsUnknownVersion_iff {b : Bytes} : HoldsUnknownVersion notary b ↔
    ∃ x e rest, counted x = .ok e ∧ b = e ++ rest ∧
      ((∃ n : LineageNode, n.HasUnknownVersion notary ∧ n.encode = .ok x) ∨
        ∃ n : LineageNode, notary.Knows n.certificate ∧ n.encode = .ok x ∧
          HoldsUnknownVersion notary rest) := by
  constructor
  · rintro ⟨front, n, written, rest, known, hversion, hw, rfl⟩
    cases front with
    | nil =>
      obtain ⟨x, hn, e, he, r, -, rfl⟩ := encodeNodes_cons_eq_ok.mp hw
      exact ⟨x, e, r ++ rest, he, List.append_assoc .., .inl ⟨n, hversion, hn⟩⟩
    | cons first front =>
      obtain ⟨hk, hks⟩ := List.forall_mem_cons.mp known
      obtain ⟨x, hfirst, e, he, r, hr, rfl⟩ := encodeNodes_cons_eq_ok.mp hw
      refine ⟨x, e, r ++ rest, he, List.append_assoc .., .inr ⟨first, hk, hfirst, ?_⟩⟩
      exact ⟨front, n, r, rest, hks, hversion, hr, rfl⟩
  · rintro ⟨x, e, rest, he, rfl, ⟨n, hversion, hn⟩ | ⟨first, hk, hfirst, h⟩⟩
    · refine ⟨[], n, e ++ [], rest, List.forall_mem_nil _, hversion, ?_, by rw [List.append_nil]⟩
      exact encodeNodes_cons_eq_ok.mpr ⟨x, hn, e, he, [], rfl, rfl⟩
    · obtain ⟨front, n, w, more, hks, hversion, hw, rfl⟩ := h
      refine ⟨first :: front, n, e ++ w, more, List.forall_mem_cons.mpr ⟨hk, hks⟩, hversion, ?_, ?_⟩
      · exact encodeNodes_cons_eq_ok.mpr ⟨x, hfirst, e, he, w, hw, rfl⟩
      · rw [List.append_assoc]

/-- Reading nodes comes to an unknown version when that is what the first certificate has that
cannot be read. -/
theorem decodeNodes_eq_unknownVersion (faithful : notary.Faithful) {fuel : Nat} {b : Bytes}
    (hfuel : b.length ≤ fuel) :
    decodeNodes notary fuel b = .error (.mishap .unknownVersion) ↔
      HoldsUnknownVersion notary b := by
  have hnil (fuel : Nat) : decodeNodes notary fuel [] = .error (.mishap .unknownVersion) ↔
      HoldsUnknownVersion notary [] := by
    rw [holdsUnknownVersion_iff]
    constructor
    · intro h
      cases fuel <;> cases h
    · rintro ⟨x, e, rest, he, hb, -⟩
      obtain ⟨rfl, -⟩ := List.append_eq_nil_iff.mp hb.symm
      have hlen := length_counted he
      rw [List.length_nil] at hlen
      omega
  induction fuel generalizing b with
  | zero =>
    obtain rfl := List.length_eq_zero_iff.mp (Nat.le_zero.mp hfuel)
    exact hnil 0
  | succ fuel ih =>
    cases b with
    | nil => exact hnil (fuel + 1)
    | cons y b =>
      rw [holdsUnknownVersion_iff]
      simp only [decodeNodes, bind_eq_error, Prod.exists, false_or,
        Reader.counted_formatOnly.run_ne_mishap, Reader.counted_undoes _ _ _,
        LineageNode.decode_eq_unknownVersion, LineageNode.decode_eq_ok faithful]
      constructor
      · rintro ⟨x, rest, ⟨e, he, hb⟩, h | ⟨n, ⟨hk, hn⟩, h | ⟨_, _, h⟩⟩⟩
        · exact ⟨x, e, rest, he, hb, .inl h⟩
        · have hrest := (ih (length_behind_counted he hb hfuel)).mp h
          exact ⟨x, e, rest, he, hb, .inr ⟨n, hk, hn, hrest⟩⟩
        · cases h
      · rintro ⟨x, e, rest, he, hb, h | ⟨n, hk, hn, h⟩⟩
        · exact ⟨x, rest, ⟨e, he, hb⟩, .inl h⟩
        · have hrest := (ih (length_behind_counted he hb hfuel)).mpr h
          exact ⟨x, rest, ⟨e, he, hb⟩, .inr ⟨n, ⟨hk, hn⟩, .inl hrest⟩⟩

/-- Nodes that are written have statements. -/
theorem signedData_of_encodeNodes {nodes : List LineageNode} {b : Bytes}
    (h : encodeNodes nodes = .ok b) : ∀ n ∈ nodes, ∃ st, n.signedData = .ok st := by
  induction nodes generalizing b with
  | nil => simp
  | cons n nodes ih =>
    obtain ⟨x, hx, _, _, r, hr, _⟩ := encodeNodes_cons_eq_ok.mp h
    obtain ⟨st, hst, _⟩ := LineageNode.encode_eq_ok.mp hx
    intro m hm
    rcases List.mem_cons.mp hm with rfl | hm
    · exact ⟨st, hst⟩
    · exact ih hr m hm

/-! ## Files -/

/-- The bytes behind the versions of a file, as many as are counted. What follows them is looked
at only when they have been read. -/
def HasContent (data content : Bytes) : Prop :=
  ∃ mark v w body surplus, number magic = .ok mark ∧ number fileVersion = .ok v ∧
    number version = .ok w ∧ counted (w ++ content) = .ok body ∧ data = mark ++ v ++ body ++ surplus

/-- The mishaps that nodes come to, by the bytes that hold them: a first certificate that cannot
be read is one of an unknown version, or all certificates are read and the first node that
is not in order finds a key that is of no use. -/
inductive Escapes (notary : Notary) : Mishap → Bytes → Prop
  | unknownVersion {content : Bytes} (h : HoldsUnknownVersion notary content) :
      Escapes notary .unknownVersion content
  | key {front back : List LineageNode} {p n : LineageNode} {written : Bytes} {m : Mishap}
      (known : ∀ x ∈ front ++ p :: n :: back, notary.Knows x.certificate)
      (hw : encodeNodes (front ++ p :: n :: back) = .ok written)
      (sound : Sound notary (front ++ [p]))
      (new : n.certificate.der ∉ (front ++ [p]).map (·.certificate.der))
      (agree : n.parentAlgorithm = p.algorithm) (h : KeyFails notary p n m) :
      Escapes notary m written

theorem decode_eq_mishap (faithful : notary.Faithful) (documented : notary.FailsAsDocumented)
    {b : Bytes} : decode notary b = .error (.mishap m) ↔
      ∃ w content, number version = .ok w ∧ b = w ++ content ∧ Escapes notary m content := by
  unfold decode
  simp only [bind_eq_error, Prod.exists, refuse_if_eq_error, Decidable.not_not, false_or,
    Reader.number_formatOnly.run_ne_mishap, Reader.number_undoes _ _ _, List.isEmpty_iff]
  constructor
  · rintro ⟨_, content, ⟨w, hw, rfl⟩, ⟨_, h⟩ | ⟨rfl, hn | ⟨nodes, hn, ⟨_, h⟩ | ⟨-, h | ⟨_, _, h⟩⟩⟩⟩⟩
    · cases h
    · obtain rfl := List.mem_singleton.mp (decodeNodes_fails documented _ _ _ hn).mem
      have hversion := (decodeNodes_eq_unknownVersion faithful (Nat.le_refl _)).mp hn
      exact ⟨w, _, hw, rfl, .unknownVersion hversion⟩
    · cases h
    · obtain ⟨hks, hwritten⟩ := (decodeNodes_eq_ok faithful (Nat.le_refl _)).mp hn
      obtain ⟨front, p, n, back, rfl, hsound, hnew, hagree, h | ⟨_, _, h⟩⟩ := verify_eq_mishap.mp h
      · exact ⟨w, content, hw, rfl, .key hks hwritten hsound hnew hagree h⟩
      · -- what was read can be written again, its statements included
        obtain ⟨st, hst⟩ := signedData_of_encodeNodes hwritten n (by simp)
        rw [hst] at h
        cases h
    · cases h
  · rintro ⟨w, content, hw, rfl, h⟩
    refine ⟨version, content, ⟨w, hw, rfl⟩, .inr ⟨rfl, ?_⟩⟩
    cases h with
    | unknownVersion h =>
      exact .inl ((decodeNodes_eq_unknownVersion faithful (Nat.le_refl _)).mpr h)
    | @key front back p n _ _ known hwritten sound new agree h =>
      refine .inr ⟨front ++ p :: n :: back, ?_, .inr ⟨?_, .inl ?_⟩⟩
      · exact (decodeNodes_eq_ok faithful (Nat.le_refl _)).mpr ⟨known, hwritten⟩
      · exact List.append_ne_nil_of_right_ne_nil _ (List.cons_ne_nil _ _)
      · exact verify_eq_mishap.mpr ⟨front, p, n, back, rfl, sound, new, agree, .inl h⟩

theorem ofBytes_eq_mishap (faithful : notary.Faithful) (documented : notary.FailsAsDocumented)
    {data : Bytes} : ofBytes notary data = .error (.mishap m) ↔
      ∃ content, HasContent data content ∧ Escapes notary m content := by
  unfold ofBytes HasContent
  simp only [bind_eq_error, Prod.exists, refuse_if_eq_error, Decidable.not_not, false_or,
    Reader.number_formatOnly.run_ne_mishap, Reader.counted_formatOnly.run_ne_mishap,
    Reader.finish_formatOnly.run_ne_mishap, Reader.number_undoes _ _ _,
    Reader.counted_undoes _ _ _, decode_eq_mishap faithful documented]
  constructor
  · rintro ⟨_, _, ⟨mark, hmark, rfl⟩, ⟨_, h⟩ | ⟨rfl, _, _, ⟨v, hv, rfl⟩, ⟨_, h⟩ |
      ⟨rfl, _, surplus, ⟨body, hbody, rfl⟩, ⟨w, content, hw, rfl, h⟩ | ⟨_, _, _, _, _, h⟩⟩⟩⟩
    · cases h
    · cases h
    · refine ⟨content, ⟨mark, v, w, body, surplus, hmark, hv, hw, hbody, ?_⟩, h⟩
      simp only [List.append_assoc]
    · cases h
  · rintro ⟨content, ⟨mark, v, w, body, surplus, hmark, hv, hw, hbody, rfl⟩, h⟩
    refine ⟨magic, v ++ body ++ surplus, ⟨mark, hmark, by simp only [List.append_assoc]⟩,
      .inr ⟨rfl, fileVersion, body ++ surplus, ⟨v, hv, List.append_assoc ..⟩, .inr ⟨rfl, ?_⟩⟩⟩
    exact ⟨w ++ content, surplus, ⟨body, hbody, rfl⟩, .inl ⟨w, content, hw, rfl, h⟩⟩

/-- The mishaps that escape are those of certificates and keys. -/
theorem Escapes.mem (documented : notary.FailsAsDocumented) {content : Bytes}
    (h : Escapes notary m content) : m ∈ [.unknownVersion, .badValue, .unsupported] := by
  cases h with
  | unknownVersion => simp
  | key known hw sound new agree h =>
    cases h with
    | extracting h =>
      have hm := (documented.publicKey _ _ h).mem
      simp only [List.mem_cons, List.not_mem_nil, or_false] at hm ⊢
      exact .inr hm
    | checking _ _ _ _ h =>
      have hm := (documented.check _ _ _ _ _ h).mem
      simp only [List.mem_cons, List.not_mem_nil, or_false] at hm ⊢
      exact .inr (.inl hm)

/-- The mishaps of certificates, of keys, and of numbers that are written. -/
def mishaps : List Mishap := [.unknownVersion, .badValue, .unsupported, .doesNotFit]

theorem verify_formatOr (documented : notary.FailsAsDocumented) (nodes : List LineageNode) :
    FailsOnly (FormatOr mishaps) (verify notary nodes) := by
  refine verify_fails .format ?_ ?_ ?_
  · exact fun n _ => (documented.publicKey n.certificate).mono fun _ => .of_mishaps (by decide)
  · intro n _ fault h
    obtain ⟨-, rfl⟩ := LineageNode.statement_eq_error.mp h
    exact .mishap (by decide)
  · exact fun a key s st => (documented.check a key s st).mono fun _ => .of_mishaps (by decide)

theorem decode_formatOr (documented : notary.FailsAsDocumented) (b : Bytes) :
    FailsOnly (FormatOr mishaps) (decode notary b) := by
  unfold decode
  refine .bind ((Reader.number_formatOnly b).mono fun _ => .mono nofun) ?_
  rintro ⟨v, rest⟩ -
  dsimp only
  split
  · exact .error (.format _)
  · refine .bind ((decodeNodes_fails documented _ rest).mono fun _ => .mono (by decide))
      fun nodes _ => ?_
    split
    · exact .error (.format _)
    · exact .bind (verify_formatOr documented nodes) fun _ _ => .pure _

theorem ofBytes_formatOr (documented : notary.FailsAsDocumented) (data : Bytes) :
    FailsOnly (FormatOr mishaps) (ofBytes notary data) := by
  unfold ofBytes
  refine .bind ((Reader.number_formatOnly data).mono fun _ => .mono nofun) ?_
  rintro ⟨mark, b⟩ -
  dsimp only
  split
  · exact .error (.format _)
  · refine .bind ((Reader.number_formatOnly b).mono fun _ => .mono nofun) ?_
    rintro ⟨v, b⟩ -
    dsimp only
    split
    · exact .error (.format _)
    · exact .bind ((Reader.counted_formatOnly b).mono fun _ => .mono nofun) fun (body, rest) _ =>
        .bind (decode_formatOr documented body) fun _ _ =>
        .bind ((Reader.finish_formatOnly rest).mono fun _ => .mono nofun) fun _ _ => .pure _

/-- Any bytes are read as a lineage, or refused with a fault of the format, unless a certificate or
a key is in the way: exactly the files are refused with something else that hold, behind the right
mark and versions, a first certificate that cannot be read and is one of an unknown version,
or certificates that are all read, and a first node that is not in order because the key before
it cannot be extracted or used. The fuel for reading nodes is never too little. -/
theorem refused_as_format_unless_escaping (faithful : notary.Faithful)
    (documented : notary.FailsAsDocumented) (data : Bytes) :
    ((∃ l, ofBytes notary data = .ok l) ∨
      (∃ problem, ofBytes notary data = .error (.lineageFormat problem)) ∨
      ∃ m ∈ [Mishap.unknownVersion, .badValue, .unsupported],
        ofBytes notary data = .error (.mishap m)) ∧
    (∀ m, ofBytes notary data = .error (.mishap m) ↔
      ∃ content, HasContent data content ∧ Escapes notary m content) ∧
    ∀ fuel b, b.length ≤ fuel → decodeNodes notary fuel b = decodeNodes notary b.length b := by
  have hescape (m : Mishap) : ofBytes notary data = .error (.mishap m) ↔
      ∃ content, HasContent data content ∧ Escapes notary m content :=
    ofBytes_eq_mishap faithful documented
  refine ⟨?_, hescape, fun _ _ h => decodeNodes_eq_of_fuel h (Nat.le_refl _)⟩
  cases hresult : ofBytes notary data with
  | ok l => exact .inl ⟨l, rfl⟩
  | error fault =>
    cases ofBytes_formatOr documented data fault hresult with
    | format problem => exact .inr (.inl ⟨problem, rfl⟩)
    | @mishap m =>
      obtain ⟨content, -, h⟩ := (hescape m).mp hresult
      exact .inr (.inr ⟨m, h.mem documented, rfl⟩)

/-- A file of one node whose certificate has its version overwritten with one that is not known. -/
def sampleOfUnknownVersion : Bytes :=
  [0xd1, 0x39, 0xff, 0x3e] ++ [1, 0, 0, 0] ++ [28, 1, 0, 0] ++ [1, 0, 0, 0] ++ [20, 1, 0, 0] ++
  [4, 1, 0, 0] ++ [252, 0, 0, 0] ++ Sample.older.certificate.der.set 10 1 ++ [0, 0, 0, 0] ++
  [0, 0, 0, 0] ++ [0, 0, 0, 0] ++ [0, 0, 0, 0]

theorem sample_version_escapes :
    (Notary.standard []).Faithful ∧ (Notary.standard []).FailsAsDocumented ∧
    ∃ content, HasContent sampleOfUnknownVersion content ∧
      Escapes (.standard []) .unknownVersion content := by
  have faithful := Notary.standard_faithful []
  have documented := Notary.standard_failsAsDocumented []
  refine ⟨faithful, documented, ?_⟩
  exact ((refused_as_format_unless_escaping faithful documented _).2.1 _).mp (by decide +kernel)

/-- A certificate of an unknown version is not reported as a fault of the format, though a
malformed one is. -/
theorem sample_not_reported_as_format :
    (∃ fault, ofBytes (.standard []) sampleOfUnknownVersion = .error fault ∧
      ∀ problem, fault ≠ .lineageFormat problem) ∧
    ofBytes (.standard []) (sampleOfUnknownVersion.set 38 255) =
      .error (.lineageFormat .badCertificate) :=
  ⟨⟨.mishap .unknownVersion, by decide +kernel, nofun⟩, by decide +kernel⟩

end Lineage
end PackageSigning
