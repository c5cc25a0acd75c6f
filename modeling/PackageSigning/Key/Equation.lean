import PackageSigning.Key

/-!
# Equations of the elliptic curves

Over a prime field a curve is `y² = x³ + ax + b`. Over a field of characteristic two it is
`y² + xy = x³ + ax² + b`, where the field consists of the polynomials below a degree, a number
standing for the polynomial that its bits are the coefficients of.
-/

namespace PackageSigning

/-- The equation of a curve over a prime field, its base point, and how often the base point can be
added up before it gives the point at infinity. -/
structure CurveEquation where
  modulus : Nat
  a : Nat
  b : Nat
  baseX : Nat
  baseY : Nat
  order : Nat
  deriving DecidableEq, Repr

/-- The equation of a curve over a field of characteristic two, and the same of it. -/
structure BinaryEquation where
  degree : Nat
  /-- What the power of `degree` is equal to in the field. -/
  reduction : Nat
  a : Nat
  b : Nat
  baseX : Nat
  baseY : Nat
  order : Nat
  deriving DecidableEq, Repr

/-- The equation of a curve. -/
inductive CurveShape where
  | prime (e : CurveEquation)
  | binary (e : BinaryEquation)
  deriving DecidableEq, Repr

namespace Curve

/-- The equation of a curve. -/
def shape : Curve → CurveShape
  | p192 => .prime {
      modulus := 0xfffffffffffffffffffffffffffffffeffffffffffffffff
      a := 0xfffffffffffffffffffffffffffffffefffffffffffffffc
      b := 0x64210519e59c80e70fa7e9ab72243049feb8deecc146b9b1
      baseX := 0x188da80eb03090f67cbf20eb43a18800f4ff0afd82ff1012
      baseY := 0x7192b95ffc8da78631011ed6b24cdd573f977a11e794811
      order := 0xffffffffffffffffffffffff99def836146bc9b1b4d22831 }
  | p224 => .prime {
      modulus := 0xffffffffffffffffffffffffffffffff000000000000000000000001
      a := 0xfffffffffffffffffffffffffffffffefffffffffffffffffffffffe
      b := 0xb4050a850c04b3abf54132565044b0b7d7bfd8ba270b39432355ffb4
      baseX := 0xb70e0cbd6bb4bf7f321390b94a03c1d356c21122343280d6115c1d21
      baseY := 0xbd376388b5f723fb4c22dfe6cd4375a05a07476444d5819985007e34
      order := 0xffffffffffffffffffffffffffff16a2e0b8f03e13dd29455c5c2a3d }
  | p256 => .prime {
      modulus := 0xffffffff00000001000000000000000000000000ffffffffffffffffffffffff
      a := 0xffffffff00000001000000000000000000000000fffffffffffffffffffffffc
      b := 0x5ac635d8aa3a93e7b3ebbd55769886bc651d06b0cc53b0f63bce3c3e27d2604b
      baseX := 0x6b17d1f2e12c4247f8bce6e563a440f277037d812deb33a0f4a13945d898c296
      baseY := 0x4fe342e2fe1a7f9b8ee7eb4a7c0f9e162bce33576b315ececbb6406837bf51f5
      order := 0xffffffff00000000ffffffffffffffffbce6faada7179e84f3b9cac2fc632551 }
  | p384 => .prime {
      modulus := 0xfffffffffffffffffffffffffffffffffffffffffffffffffffffffffffffffeffffffff0000000000000000ffffffff
      a := 0xfffffffffffffffffffffffffffffffffffffffffffffffffffffffffffffffeffffffff0000000000000000fffffffc
      b := 0xb3312fa7e23ee7e4988e056be3f82d19181d9c6efe8141120314088f5013875ac656398d8a2ed19d2a85c8edd3ec2aef
      baseX := 0xaa87ca22be8b05378eb1c71ef320ad746e1d3b628ba79b9859f741e082542a385502f25dbf55296c3a545e3872760ab7
      baseY := 0x3617de4a96262c6f5d9e98bf9292dc29f8f41dbd289a147ce9da3113b5f0b8c00a60b1ce1d7e819d7a431d7c90ea0e5f
      order := 0xffffffffffffffffffffffffffffffffffffffffffffffffc7634d81f4372ddf581a0db248b0a77aecec196accc52973 }
  | p521 => .prime {
      modulus := 0x1ffffffffffffffffffffffffffffffffffffffffffffffffffffffffffffffffffffffffffffffffffffffffffffffffffffffffffffffffffffffffffffffffff
      a := 0x1fffffffffffffffffffffffffffffffffffffffffffffffffffffffffffffffffffffffffffffffffffffffffffffffffffffffffffffffffffffffffffffffffc
      b := 0x51953eb9618e1c9a1f929a21a0b68540eea2da725b99b315f3b8b489918ef109e156193951ec7e937b1652c0bd3bb1bf073573df883d2c34f1ef451fd46b503f00
      baseX := 0xc6858e06b70404e9cd9e3ecb662395b4429c648139053fb521f828af606b4d3dbaa14b5e77efe75928fe1dc127a2ffa8de3348b3c1856a429bf97e7e31c2e5bd66
      baseY := 0x11839296a789a3bc0045c8a5fb42c7d1bd998f54449579b446817afbd17273e662c97ee72995ef42640c550b9013fad0761353c7086a272c24088be94769fd16650
      order := 0x1fffffffffffffffffffffffffffffffffffffffffffffffffffffffffffffffffa51868783bf2f966b7fcc0148f709a5d03bb5c9b8899c47aebb6fb71e91386409 }
  | k256 => .prime {
      modulus := 0xfffffffffffffffffffffffffffffffffffffffffffffffffffffffefffffc2f
      a := 0
      b := 7
      baseX := 0x79be667ef9dcbbac55a06295ce870b07029bfcdb2dce28d959f2815b16f81798
      baseY := 0x483ada7726a3c4655da4fbfc0e1108a8fd17b448a68554199c47d08ffb10d4b8
      order := 0xfffffffffffffffffffffffffffffffebaaedce6af48a03bbfd25e8cd0364141 }
  | b256 => .prime {
      modulus := 0xa9fb57dba1eea9bc3e660a909d838d726e3bf623d52620282013481d1f6e5377
      a := 0x7d5a0975fc2c3057eef67530417affe7fb8055c126dc5c6ce94a4b44f330b5d9
      b := 0x26dc5c6ce94a4b44f330b5d9bbd77cbf958416295cf7e1ce6bccdc18ff8c07b6
      baseX := 0x8bd2aeb9cb7e57cb2c4b482ffc81b7afb9de27e1e3bd23c23a4453bd9ace3262
      baseY := 0x547ef835c3dac4fd97f8461a14611dc9c27745132ded8e545c1d54c72f046997
      order := 0xa9fb57dba1eea9bc3e660a909d838d718c397aa3b561a6f7901e0e82974856a7 }
  | b384 => .prime {
      modulus := 0x8cb91e82a3386d280f5d6f7e50e641df152f7109ed5456b412b1da197fb71123acd3a729901d1a71874700133107ec53
      a := 0x7bc382c63d8c150c3c72080ace05afa0c2bea28e4fb22787139165efba91f90f8aa5814a503ad4eb04a8c7dd22ce2826
      b := 0x4a8c7dd22ce28268b39b55416f0447c2fb77de107dcd2a62e880ea53eeb62d57cb4390295dbc9943ab78696fa504c11
      baseX := 0x1d1c64f068cf45ffa2a63a81b7c13f6b8847a3e77ef14fe3db7fcafe0cbd10e8e826e03436d646aaef87b2e247d4af1e
      baseY := 0x8abe1d7520f9c2a45cb1eb8e95cfd55262b70b29feec5864e19c054ff99129280e4646217791811142820341263c5315
      order := 0x8cb91e82a3386d280f5d6f7e50e641df152f7109ed5456b31f166e6cac0425a7cf3ab6af6b7fc3103b883202e9046565 }
  | b512 => .prime {
      modulus := 0xaadd9db8dbe9c48b3fd4e6ae33c9fc07cb308db3b3c9d20ed6639cca703308717d4d9b009bc66842aecda12ae6a380e62881ff2f2d82c68528aa6056583a48f3
      a := 0x7830a3318b603b89e2327145ac234cc594cbdd8d3df91610a83441caea9863bc2ded5d5aa8253aa10a2ef1c98b9ac8b57f1117a72bf2c7b9e7c1ac4d77fc94ca
      b := 0x3df91610a83441caea9863bc2ded5d5aa8253aa10a2ef1c98b9ac8b57f1117a72bf2c7b9e7c1ac4d77fc94cadc083e67984050b75ebae5dd2809bd638016f723
      baseX := 0x81aee4bdd82ed9645a21322e9c4c6a9385ed9f70b5d916c1b43b62eef4d0098eff3b1f78e2d0d48d50d1687b93b97d5f7c6d5047406a5e688b352209bcb9f822
      baseY := 0x7dde385d566332ecc0eabfa9cf7822fdf209f70024a57b1aa000c55b881f8111b2dcde494a5f485e5bca4bd88a2763aed1ca2b2fa8f0540678cd1e0f3ad80892
      order := 0xaadd9db8dbe9c48b3fd4e6ae33c9fc07cb308db3b3c9d20ed6639cca70330870553e5c414ca92619418661197fac10471db1d381085ddaddb58796829ca90069 }
  | t163k1 => .binary {
      degree := 163
      reduction := 0xc9
      a := 1
      b := 1
      baseX := 0x2fe13c0537bbc11acaa07d793de4e6d5e5c94eee8
      baseY := 0x289070fb05d38ff58321f2e800536d538ccdaa3d9
      order := 0x4000000000000000000020108a2e0cc0d99f8a5ef }
  | t163r2 => .binary {
      degree := 163
      reduction := 0xc9
      a := 1
      b := 0x20a601907b8c953ca1481eb10512f78744a3205fd
      baseX := 0x3f0eba16286a2d57ea0991168d4994637e8343e36
      baseY := 0xd51fbc6c71a0094fa2cdd545b11c5c0c797324f1
      order := 0x40000000000000000000292fe77e70c12a4234c33 }
  | t233k1 => .binary {
      degree := 233
      reduction := Nat.pow 2 74 + 1
      a := 0
      b := 1
      baseX := 0x17232ba853a7e731af129f22ff4149563a419c26bf50a4c9d6eefad6126
      baseY := 0x1db537dece819b7f70f555a67c427a8cd9bf18aeb9b56e0c11056fae6a3
      order := 0x8000000000000000000000000000069d5bb915bcd46efb1ad5f173abdf }
  | t233r1 => .binary {
      degree := 233
      reduction := Nat.pow 2 74 + 1
      a := 1
      b := 0x66647ede6c332c7f8c0923bb58213b333b20e9ce4281fe115f7d8f90ad
      baseX := 0xfac9dfcbac8313bb2139f1bb755fef65bc391f8b36f8f8eb7371fd558b
      baseY := 0x1006a08a41903350678e58528bebf8a0beff867a7ca36716f7e01f81052
      order := 0x1000000000000000000000000000013e974e72f8a6922031d2603cfe0d7 }
  | t283k1 => .binary {
      degree := 283
      reduction := 0x10a1
      a := 0
      b := 1
      baseX := 0x503213f78ca44883f1a3b8162f188e553cd265f23c1567a16876913b0c2ac2458492836
      baseY := 0x1ccda380f1c9e318d90f95d07e5426fe87e45c0e8184698e45962364e34116177dd2259
      order := 0x1ffffffffffffffffffffffffffffffffffe9ae2ed07577265dff7f94451e061e163c61 }
  | t283r1 => .binary {
      degree := 283
      reduction := 0x10a1
      a := 1
      b := 0x27b680ac8b8596da5a4af8a19a0303fca97fd7645309fa2a581485af6263e313b79a2f5
      baseX := 0x5f939258db7dd90e1934f8c70b0dfec2eed25b8557eac9c80e2e198f8cdbecd86b12053
      baseY := 0x3676854fe24141cb98fe6d4b20d02b4516ff702350eddb0826779c813f0df45be8112f4
      order := 0x3ffffffffffffffffffffffffffffffffffef90399660fc938a90165b042a7cefadb307 }
  | t409k1 => .binary {
      degree := 409
      reduction := Nat.pow 2 87 + 1
      a := 0
      b := 1
      baseX := 0x60f05f658f49c1ad3ab1890f7184210efd0987e307c84c27accfb8f9f67cc2c460189eb5aaaa62ee222eb1b35540cfe9023746
      baseY := 0x1e369050b7c4e42acba1dacbf04299c3460782f918ea427e6325165e9ea10e3da5f6c42e9c55215aa9ca27a5863ec48d8e0286b
      order := 0x7ffffffffffffffffffffffffffffffffffffffffffffffffffe5f83b2d4ea20400ec4557d5ed3e3e7ca5b4b5c83b8e01e5fcf }
  | t409r1 => .binary {
      degree := 409
      reduction := Nat.pow 2 87 + 1
      a := 1
      b := 0x21a5c2c8ee9feb5c4b9a753b7b476b7fd6422ef1f3dd674761fa99d6ac27c8a9a197b272822f6cd57a55aa4f50ae317b13545f
      baseX := 0x15d4860d088ddb3496b0c6064756260441cde4af1771d4db01ffe5b34e59703dc255a868a1180515603aeab60794e54bb7996a7
      baseY := 0x61b1cfab6be5f32bbfa78324ed106a7636b9c5a7bd198d0158aa4f5488d08f38514f1fdf4b4f40d2181b3681c364ba0273c706
      order := 0x10000000000000000000000000000000000000000000000000001e2aad6a612f33307be5fa47c3c9e052f838164cd37d9a21173 }
  | t571k1 => .binary {
      degree := 571
      reduction := 0x425
      a := 0
      b := 1
      baseX := 0x26eb7a859923fbc82189631f8103fe4ac9ca2970012d5d46024804801841ca44370958493b205e647da304db4ceb08cbbd1ba39494776fb988b47174dca88c7e2945283a01c8972
      baseY := 0x349dc807f4fbf374f4aeade3bca95314dd58cec9f307a54ffc61efc006d8a2c9d4979c0ac44aea74fbebbb9f772aedcb620b01a7ba7af1b320430c8591984f601cd4c143ef1c7a3
      order := 0x20000000000000000000000000000000000000000000000000000000000000000000000131850e1f19a63e4b391a8db917f4138b630d84be5d639381e91deb45cfe778f637c1001 }
  | t571r1 => .binary {
      degree := 571
      reduction := 0x425
      a := 1
      b := 0x2f40e7e2221f295de297117b7f3d62f5c6a97ffcb8ceff1cd6ba8ce4a9a18ad84ffabbd8efa59332be7ad6756a66e294afd185a78ff12aa520e4de739baca0c7ffeff7f2955727a
      baseX := 0x303001d34b856296c16c0d40d3cd7750a93d1d2955fa80aa5f40fc8db7b2abdbde53950f4c0d293cdd711a35b67fb1499ae60038614f1394abfa3b4c850d927e1e7769c8eec2d19
      baseY := 0x37bf27342da639b6dccfffeb73d69d78c6c27a6009cbbca1980f8533921e8a684423e43bab08a576291af8f461bb2a8b3531d2f0485c19b16e2f1516e23dd3c1a4827af1b8ac15b
      order := 0x3ffffffffffffffffffffffffffffffffffffffffffffffffffffffffffffffffffffffe661ce18ff55987308059b186823851ec7dd9ca1161de93d5174d66e8382e9bb2fe84e47 }

/-- The number of points that the base point makes. -/
def order (c : Curve) : Nat :=
  match c.shape with
  | .prime e => e.order
  | .binary e => e.order

end Curve
end PackageSigning
