import NestedSite.Text.Mapping

/-!
# Letter case

The full case mappings of Unicode 14. A mapping is a table of runs with the distance to the mapped character, and a
table of the characters that map to several. A small letter sigma at the end of a word has a form of its own
(`lowerAll`); every other mapping depends on its character alone.
-/

namespace NestedSite.Text

/-- Upper-case characters. -/
def uppers : CharSet := .ofText
  "41-5a c0-d6 d8-de 100-136/2 139-147/2 14a-176/2 178-179 17b 17d 181-182 184 186-187 189-18b 18e-191 193-194
    196-198 19c-19d 19f-1a0 1a2 1a4 1a6-1a7 1a9 1ac 1ae-1af 1b1-1b3 1b5 1b7-1b8 1bc 1c4 1c7 1ca 1cd-1db/2
    1de-1ee/2 1f1 1f4 1f6-1f8 1fa-232/2 23a-23b 23d-23e 241 243-246 248-24e/2 370 372 376 37f 386 388-38a 38c
    38e-38f 391-3a1 3a3-3ab 3cf 3d2-3d4 3d8-3ee/2 3f4 3f7 3f9-3fa 3fd-42f 460-480/2 48a-4be/2 4c0-4c1 4c3-4cd/2
    4d0-52e/2 531-556 10a0-10c5 10c7 10cd 13a0-13f5 1c90-1cba 1cbd-1cbf 1e00-1e94/2 1e9e-1efe/2 1f08-1f0f
    1f18-1f1d 1f28-1f2f 1f38-1f3f 1f48-1f4d 1f59-1f5f/2 1f68-1f6f 1fb8-1fbb 1fc8-1fcb 1fd8-1fdb 1fe8-1fec
    1ff8-1ffb 2102 2107 210b-210d 2110-2112 2115 2119-211d 2124-2128/2 212a-212d 2130-2133 213e-213f 2145
    2160-216f 2183 24b6-24cf 2c00-2c2f 2c60 2c62-2c64 2c67-2c6b/2 2c6d-2c70 2c72 2c75 2c7e-2c80 2c82-2ce2/2
    2ceb 2ced 2cf2 a640-a66c/2 a680-a69a/2 a722-a72e/2 a732-a76e/2 a779 a77b a77d-a77e a780-a786/2 a78b a78d
    a790 a792 a796-a7a8/2 a7aa-a7ae a7b0-a7b4 a7b6-a7c2/2 a7c4-a7c7 a7c9 a7d0 a7d6 a7d8 a7f5 ff21-ff3a
    10400-10427 104b0-104d3 10570-1057a 1057c-1058a 1058c-10592 10594-10595 10c80-10cb2 118a0-118bf 16e40-16e5f
    1d400-1d419 1d434-1d44d 1d468-1d481 1d49c 1d49e-1d49f 1d4a2 1d4a5-1d4a6 1d4a9-1d4ac 1d4ae-1d4b5 1d4d0-1d4e9
    1d504-1d505 1d507-1d50a 1d50d-1d514 1d516-1d51c 1d538-1d539 1d53b-1d53e 1d540-1d544 1d546 1d54a-1d550
    1d56c-1d585 1d5a0-1d5b9 1d5d4-1d5ed 1d608-1d621 1d63c-1d655 1d670-1d689 1d6a8-1d6c0 1d6e2-1d6fa 1d71c-1d734
    1d756-1d76e 1d790-1d7a8 1d7ca 1e900-1e921 1f130-1f149 1f150-1f169 1f170-1f189"

/-- Lower-case characters. -/
def lowers : CharSet := .ofText
  "61-7a aa b5 ba df-f6 f8-ff 101-135/2 137-138 13a-146/2 148-149 14b-177/2 17a 17c 17e-180 183 185 188
    18c-18d 192 195 199-19b 19e 1a1-1a5/2 1a8 1aa-1ab 1ad 1b0 1b4 1b6 1b9-1ba 1bd-1bf 1c6 1c9 1cc-1da/2 1dc-1dd
    1df-1ed/2 1ef-1f0 1f3 1f5 1f9-231/2 233-239 23c 23f-240 242 247-24d/2 24f-293 295-2b8 2c0-2c1 2e0-2e4 345
    371 373 377 37a-37d 390 3ac-3ce 3d0-3d1 3d5-3d7 3d9-3ed/2 3ef-3f3 3f5 3f8 3fb-3fc 430-45f 461-481/2
    48b-4bf/2 4c2-4cc/2 4ce-4cf 4d1-52f/2 560-588 10d0-10fa 10fd-10ff 13f8-13fd 1c80-1c88 1d00-1dbf 1e01-1e93/2
    1e95-1e9d 1e9f-1efd/2 1eff-1f07 1f10-1f15 1f20-1f27 1f30-1f37 1f40-1f45 1f50-1f57 1f60-1f67 1f70-1f7d
    1f80-1f87 1f90-1f97 1fa0-1fa7 1fb0-1fb4 1fb6-1fb7 1fbe 1fc2-1fc4 1fc6-1fc7 1fd0-1fd3 1fd6-1fd7 1fe0-1fe7
    1ff2-1ff4 1ff6-1ff7 2071 207f 2090-209c 210a 210e-210f 2113 212f 2134 2139 213c-213d 2146-2149 214e
    2170-217f 2184 24d0-24e9 2c30-2c5f 2c61 2c65-2c66 2c68-2c6c/2 2c71 2c73-2c74 2c76-2c7d 2c81-2ce1/2
    2ce3-2ce4 2cec 2cee 2cf3 2d00-2d25 2d27 2d2d a641-a66d/2 a681-a699/2 a69b-a69d a723-a72d/2 a72f-a731
    a733-a76d/2 a76f-a778 a77a a77c a77f-a787/2 a78c a78e a791 a793-a795 a797-a7a9/2 a7af a7b5-a7c3/2 a7c8 a7ca
    a7d1-a7d9/2 a7f6 a7f8-a7fa ab30-ab5a ab5c-ab68 ab70-abbf fb00-fb06 fb13-fb17 ff41-ff5a 10428-1044f
    104d8-104fb 10597-105a1 105a3-105b1 105b3-105b9 105bb-105bc 10780 10783-10785 10787-107b0 107b2-107ba
    10cc0-10cf2 118c0-118df 16e60-16e7f 1d41a-1d433 1d44e-1d454 1d456-1d467 1d482-1d49b 1d4b6-1d4b9 1d4bb
    1d4bd-1d4c3 1d4c5-1d4cf 1d4ea-1d503 1d51e-1d537 1d552-1d56b 1d586-1d59f 1d5ba-1d5d3 1d5ee-1d607 1d622-1d63b
    1d656-1d66f 1d68a-1d6a5 1d6c2-1d6da 1d6dc-1d6e1 1d6fc-1d714 1d716-1d71b 1d736-1d74e 1d750-1d755 1d770-1d788
    1d78a-1d78f 1d7aa-1d7c2 1d7c4-1d7c9 1d7cb 1df00-1df09 1df0b-1df1e 1e922-1e943"

/-- Title-case characters. -/
def titles : CharSet := .ofText
  "1c5 1c8 1cb 1f2 1f88-1f8f 1f98-1f9f 1fa8-1faf 1fbc 1fcc 1ffc"

/-- Characters that the search for the end of a word skips. -/
def caseIgnorables : CharSet := .ofText
  "27 2e 3a 5e 60 a8 ad af b4 b7-b8 2b0-36f 374-375 37a 384-385 387 483-489 559 55f 591-5bd 5bf 5c1-5c2
    5c4-5c5 5c7 5f4 600-605 610-61a 61c 640 64b-65f 670 6d6-6dd 6df-6e8 6ea-6ed 70f 711 730-74a 7a6-7b0 7eb-7f5
    7fa 7fd 816-82d 859-85b 888 890-891 898-89f 8c9-902 93a 93c 941-948 94d 951-957 962-963 971 981 9bc 9c1-9c4
    9cd 9e2-9e3 9fe a01-a02 a3c a41-a42 a47-a48 a4b-a4d a51 a70-a71 a75 a81-a82 abc ac1-ac5 ac7-ac8 acd ae2-ae3
    afa-aff b01 b3c b3f b41-b44 b4d b55-b56 b62-b63 b82 bc0 bcd c00 c04 c3c c3e-c40 c46-c48 c4a-c4d c55-c56
    c62-c63 c81 cbc cbf cc6 ccc-ccd ce2-ce3 d00-d01 d3b-d3c d41-d44 d4d d62-d63 d81 dca dd2-dd4 dd6 e31 e34-e3a
    e46-e4e eb1 eb4-ebc ec6 ec8-ecd f18-f19 f35-f39/2 f71-f7e f80-f84 f86-f87 f8d-f97 f99-fbc fc6 102d-1030
    1032-1037 1039-103a 103d-103e 1058-1059 105e-1060 1071-1074 1082 1085-1086 108d 109d 10fc 135d-135f
    1712-1714 1732-1733 1752-1753 1772-1773 17b4-17b5 17b7-17bd 17c6 17c9-17d3 17d7 17dd 180b-180f 1843
    1885-1886 18a9 1920-1922 1927-1928 1932 1939-193b 1a17-1a18 1a1b 1a56 1a58-1a5e 1a60 1a62 1a65-1a6c
    1a73-1a7c 1a7f 1aa7 1ab0-1ace 1b00-1b03 1b34 1b36-1b3a 1b3c 1b42 1b6b-1b73 1b80-1b81 1ba2-1ba5 1ba8-1ba9
    1bab-1bad 1be6 1be8-1be9 1bed 1bef-1bf1 1c2c-1c33 1c36-1c37 1c78-1c7d 1cd0-1cd2 1cd4-1ce0 1ce2-1ce8 1ced
    1cf4 1cf8-1cf9 1d2c-1d6a 1d78 1d9b-1dff 1fbd 1fbf-1fc1 1fcd-1fcf 1fdd-1fdf 1fed-1fef 1ffd-1ffe 200b-200f
    2018-2019 2024 2027 202a-202e 2060-2064 2066-206f 2071 207f 2090-209c 20d0-20f0 2c7c-2c7d 2cef-2cf1 2d6f
    2d7f 2de0-2dff 2e2f 3005 302a-302d 3031-3035 303b 3099-309e 30fc-30fe a015 a4f8-a4fd a60c a66f-a672
    a674-a67d a67f a69c-a69f a6f0-a6f1 a700-a721 a770 a788-a78a a7f2-a7f4 a7f8-a7f9 a802 a806 a80b a825-a826
    a82c a8c4-a8c5 a8e0-a8f1 a8ff a926-a92d a947-a951 a980-a982 a9b3 a9b6-a9b9 a9bc-a9bd a9cf a9e5-a9e6
    aa29-aa2e aa31-aa32 aa35-aa36 aa43 aa4c aa70 aa7c aab0 aab2-aab4 aab7-aab8 aabe-aabf aac1 aadd aaec-aaed
    aaf3-aaf4 aaf6 ab5b-ab5f ab69-ab6b abe5 abe8 abed fb1e fbb2-fbc2 fe00-fe0f fe13 fe20-fe2f fe52 fe55 feff
    ff07 ff0e ff1a ff3e ff40 ff70 ff9e-ff9f ffe3 fff9-fffb 101fd 102e0 10376-1037a 10780-10785 10787-107b0
    107b2-107ba 10a01-10a03 10a05-10a06 10a0c-10a0f 10a38-10a3a 10a3f 10ae5-10ae6 10d24-10d27 10eab-10eac
    10f46-10f50 10f82-10f85 11001 11038-11046 11070 11073-11074 1107f-11081 110b3-110b6 110b9-110ba 110bd 110c2
    110cd 11100-11102 11127-1112b 1112d-11134 11173 11180-11181 111b6-111be 111c9-111cc 111cf 1122f-11231 11234
    11236-11237 1123e 112df 112e3-112ea 11300-11301 1133b-1133c 11340 11366-1136c 11370-11374 11438-1143f
    11442-11444 11446 1145e 114b3-114b8 114ba 114bf-114c0 114c2-114c3 115b2-115b5 115bc-115bd 115bf-115c0
    115dc-115dd 11633-1163a 1163d 1163f-11640 116ab 116ad 116b0-116b5 116b7 1171d-1171f 11722-11725 11727-1172b
    1182f-11837 11839-1183a 1193b-1193c 1193e 11943 119d4-119d7 119da-119db 119e0 11a01-11a0a 11a33-11a38
    11a3b-11a3e 11a47 11a51-11a56 11a59-11a5b 11a8a-11a96 11a98-11a99 11c30-11c36 11c38-11c3d 11c3f 11c92-11ca7
    11caa-11cb0 11cb2-11cb3 11cb5-11cb6 11d31-11d36 11d3a 11d3c-11d3d 11d3f-11d45 11d47 11d90-11d91 11d95 11d97
    11ef3-11ef4 13430-13438 16af0-16af4 16b30-16b36 16b40-16b43 16f4f 16f8f-16f9f 16fe0-16fe1 16fe3-16fe4
    1aff0-1aff3 1aff5-1affb 1affd-1affe 1bc9d-1bc9e 1bca0-1bca3 1cf00-1cf2d 1cf30-1cf46 1d167-1d169 1d173-1d182
    1d185-1d18b 1d1aa-1d1ad 1d242-1d244 1da00-1da36 1da3b-1da6c 1da75 1da84 1da9b-1da9f 1daa1-1daaf 1e000-1e006
    1e008-1e018 1e01b-1e021 1e023-1e024 1e026-1e02a 1e130-1e13d 1e2ae 1e2ec-1e2ef 1e8d0-1e8d6 1e944-1e94b
    1f3fb-1f3ff e0001 e0020-e007f e0100-e01ef"

def isUpper (c : Char) : Bool :=
  if c.toNat < 128 then 'A' ≤ c && c ≤ 'Z' else uppers.contains c

def isLower (c : Char) : Bool :=
  if c.toNat < 128 then 'a' ≤ c && c ≤ 'z' else lowers.contains c

def isTitle (c : Char) : Bool := c.toNat ≥ 128 && titles.contains c

/-- A character that has case. -/
def isCased (c : Char) : Bool := isUpper c || isLower c || isTitle c

def upperTable : Mapping := .ofText
  "61-7a:-32 b5:743 e0-f6:-32 f8-fe:-32 ff:121 101-12f/2:-1 131:-232 133-137/2:-1 13a-148/2:-1 14b-177/2:-1
    17a-17e/2:-1 17f:-300 180:195 183-185/2:-1 188:-1 18c:-1 192:-1 195:97 199:-1 19a:163 19e:130 1a1-1a5/2:-1
    1a8:-1 1ad:-1 1b0:-1 1b4-1b6/2:-1 1b9:-1 1bd:-1 1bf:56 1c5:-1 1c6:-2 1c8:-1 1c9:-2 1cb:-1 1cc:-2
    1ce-1dc/2:-1 1dd:-79 1df-1ef/2:-1 1f2:-1 1f3:-2 1f5:-1 1f9-21f/2:-1 223-233/2:-1 23c:-1 23f-240:10815
    242:-1 247-24f/2:-1 250:10783 251:10780 252:10782 253:-210 254:-206 256-257:-205 259:-202 25b:-203
    25c:42319 260:-205 261:42315 263:-207 265:42280 266:42308 268:-209 269:-211 26a:42308 26b:10743 26c:42305
    26f:-211 271:10749 272:-213 275:-214 27d:10727 280:-218 282:42307 283:-218 287:42282 288:-218 289:-69
    28a-28b:-217 28c:-71 292:-219 29d:42261 29e:42258 345:84 371-373/2:-1 377:-1 37b-37d:130 3ac:-38
    3ad-3af:-37 3b1-3c1:-32 3c2:-31 3c3-3cb:-32 3cc:-64 3cd-3ce:-63 3d0:-62 3d1:-57 3d5:-47 3d6:-54 3d7:-8
    3d9-3ef/2:-1 3f0:-86 3f1:-80 3f2:7 3f3:-116 3f5:-96 3f8:-1 3fb:-1 430-44f:-32 450-45f:-80 461-481/2:-1
    48b-4bf/2:-1 4c2-4ce/2:-1 4cf:-15 4d1-52f/2:-1 561-586:-48 10d0-10fa:3008 10fd-10ff:3008 13f8-13fd:-8
    1c80:-6254 1c81:-6253 1c82:-6244 1c83-1c84:-6242 1c85:-6243 1c86:-6236 1c87:-6181 1c88:35266 1d79:35332
    1d7d:3814 1d8e:35384 1e01-1e95/2:-1 1e9b:-59 1ea1-1eff/2:-1 1f00-1f07:8 1f10-1f15:8 1f20-1f27:8 1f30-1f37:8
    1f40-1f45:8 1f51-1f57/2:8 1f60-1f67:8 1f70-1f71:74 1f72-1f75:86 1f76-1f77:100 1f78-1f79:128 1f7a-1f7b:112
    1f7c-1f7d:126 1fb0-1fb1:8 1fbe:-7205 1fd0-1fd1:8 1fe0-1fe1:8 1fe5:7 214e:-28 2170-217f:-16 2184:-1
    24d0-24e9:-26 2c30-2c5f:-48 2c61:-1 2c65:-10795 2c66:-10792 2c68-2c6c/2:-1 2c73:-1 2c76:-1 2c81-2ce3/2:-1
    2cec-2cee/2:-1 2cf3:-1 2d00-2d25:-7264 2d27:-7264 2d2d:-7264 a641-a66d/2:-1 a681-a69b/2:-1 a723-a72f/2:-1
    a733-a76f/2:-1 a77a-a77c/2:-1 a77f-a787/2:-1 a78c:-1 a791-a793/2:-1 a794:48 a797-a7a9/2:-1 a7b5-a7c3/2:-1
    a7c8-a7ca/2:-1 a7d1:-1 a7d7-a7d9/2:-1 a7f6:-1 ab53:-928 ab70-abbf:-38864 ff41-ff5a:-32 10428-1044f:-40
    104d8-104fb:-40 10597-105a1:-39 105a3-105b1:-39 105b3-105b9:-39 105bb-105bc:-39 10cc0-10cf2:-64
    118c0-118df:-32 16e60-16e7f:-32 1e922-1e943:-34"
  "df:53,53 149:2bc,4e 1f0:4a,30c 390:399,308,301 3b0:3a5,308,301 587:535,552 1e96:48,331 1e97:54,308
    1e98:57,30a 1e99:59,30a 1e9a:41,2be 1f50:3a5,313 1f52:3a5,313,300 1f54:3a5,313,301 1f56:3a5,313,342
    1f80:1f08,399 1f81:1f09,399 1f82:1f0a,399 1f83:1f0b,399 1f84:1f0c,399 1f85:1f0d,399 1f86:1f0e,399
    1f87:1f0f,399 1f88:1f08,399 1f89:1f09,399 1f8a:1f0a,399 1f8b:1f0b,399 1f8c:1f0c,399 1f8d:1f0d,399
    1f8e:1f0e,399 1f8f:1f0f,399 1f90:1f28,399 1f91:1f29,399 1f92:1f2a,399 1f93:1f2b,399 1f94:1f2c,399
    1f95:1f2d,399 1f96:1f2e,399 1f97:1f2f,399 1f98:1f28,399 1f99:1f29,399 1f9a:1f2a,399 1f9b:1f2b,399
    1f9c:1f2c,399 1f9d:1f2d,399 1f9e:1f2e,399 1f9f:1f2f,399 1fa0:1f68,399 1fa1:1f69,399 1fa2:1f6a,399
    1fa3:1f6b,399 1fa4:1f6c,399 1fa5:1f6d,399 1fa6:1f6e,399 1fa7:1f6f,399 1fa8:1f68,399 1fa9:1f69,399
    1faa:1f6a,399 1fab:1f6b,399 1fac:1f6c,399 1fad:1f6d,399 1fae:1f6e,399 1faf:1f6f,399 1fb2:1fba,399
    1fb3:391,399 1fb4:386,399 1fb6:391,342 1fb7:391,342,399 1fbc:391,399 1fc2:1fca,399 1fc3:397,399
    1fc4:389,399 1fc6:397,342 1fc7:397,342,399 1fcc:397,399 1fd2:399,308,300 1fd3:399,308,301 1fd6:399,342
    1fd7:399,308,342 1fe2:3a5,308,300 1fe3:3a5,308,301 1fe4:3a1,313 1fe6:3a5,342 1fe7:3a5,308,342 1ff2:1ffa,399
    1ff3:3a9,399 1ff4:38f,399 1ff6:3a9,342 1ff7:3a9,342,399 1ffc:3a9,399 fb00:46,46 fb01:46,49 fb02:46,4c
    fb03:46,46,49 fb04:46,46,4c fb05:53,54 fb06:53,54 fb13:544,546 fb14:544,535 fb15:544,53b fb16:54e,546
    fb17:544,53d"

def lowerTable : Mapping := .ofText
  "41-5a:32 c0-d6:32 d8-de:32 100-12e/2:1 132-136/2:1 139-147/2:1 14a-176/2:1 178:-121 179-17d/2:1 181:210
    182-184/2:1 186:206 187:1 189-18a:205 18b:1 18e:79 18f:202 190:203 191:1 193:205 194:207 196:211 197:209
    198:1 19c:211 19d:213 19f:214 1a0-1a4/2:1 1a6:218 1a7:1 1a9:218 1ac:1 1ae:218 1af:1 1b1-1b2:217 1b3-1b5/2:1
    1b7:219 1b8:1 1bc:1 1c4:2 1c5:1 1c7:2 1c8:1 1ca:2 1cb-1db/2:1 1de-1ee/2:1 1f1:2 1f2-1f4/2:1 1f6:-97 1f7:-56
    1f8-21e/2:1 220:-130 222-232/2:1 23a:10795 23b:1 23d:-163 23e:10792 241:1 243:-195 244:69 245:71
    246-24e/2:1 370-372/2:1 376:1 37f:116 386:38 388-38a:37 38c:64 38e-38f:63 391-3a1:32 3a3-3ab:32 3cf:8
    3d8-3ee/2:1 3f4:-60 3f7:1 3f9:-7 3fa:1 3fd-3ff:-130 400-40f:80 410-42f:32 460-480/2:1 48a-4be/2:1 4c0:15
    4c1-4cd/2:1 4d0-52e/2:1 531-556:48 10a0-10c5:7264 10c7:7264 10cd:7264 13a0-13ef:38864 13f0-13f5:8
    1c90-1cba:-3008 1cbd-1cbf:-3008 1e00-1e94/2:1 1e9e:-7615 1ea0-1efe/2:1 1f08-1f0f:-8 1f18-1f1d:-8
    1f28-1f2f:-8 1f38-1f3f:-8 1f48-1f4d:-8 1f59-1f5f/2:-8 1f68-1f6f:-8 1f88-1f8f:-8 1f98-1f9f:-8 1fa8-1faf:-8
    1fb8-1fb9:-8 1fba-1fbb:-74 1fbc:-9 1fc8-1fcb:-86 1fcc:-9 1fd8-1fd9:-8 1fda-1fdb:-100 1fe8-1fe9:-8
    1fea-1feb:-112 1fec:-7 1ff8-1ff9:-128 1ffa-1ffb:-126 1ffc:-9 2126:-7517 212a:-8383 212b:-8262 2132:28
    2160-216f:16 2183:1 24b6-24cf:26 2c00-2c2f:48 2c60:1 2c62:-10743 2c63:-3814 2c64:-10727 2c67-2c6b/2:1
    2c6d:-10780 2c6e:-10749 2c6f:-10783 2c70:-10782 2c72:1 2c75:1 2c7e-2c7f:-10815 2c80-2ce2/2:1 2ceb-2ced/2:1
    2cf2:1 a640-a66c/2:1 a680-a69a/2:1 a722-a72e/2:1 a732-a76e/2:1 a779-a77b/2:1 a77d:-35332 a77e-a786/2:1
    a78b:1 a78d:-42280 a790-a792/2:1 a796-a7a8/2:1 a7aa:-42308 a7ab:-42319 a7ac:-42315 a7ad:-42305 a7ae:-42308
    a7b0:-42258 a7b1:-42282 a7b2:-42261 a7b3:928 a7b4-a7c2/2:1 a7c4:-48 a7c5:-42307 a7c6:-35384 a7c7-a7c9/2:1
    a7d0:1 a7d6-a7d8/2:1 a7f5:1 ff21-ff3a:32 10400-10427:40 104b0-104d3:40 10570-1057a:39 1057c-1058a:39
    1058c-10592:39 10594-10595:39 10c80-10cb2:64 118a0-118bf:32 16e40-16e5f:32 1e900-1e921:34"
  "130:69,307"

/-- Title-case images where they differ from the upper-case ones. -/
def titleTable : Mapping := .ofText ""
  "df:53,73 1c4:1c5 1c5:1c5 1c6:1c5 1c7:1c8 1c8:1c8 1c9:1c8 1ca:1cb 1cb:1cb 1cc:1cb 1f1:1f2 1f2:1f2 1f3:1f2
    587:535,582 10d0:10d0 10d1:10d1 10d2:10d2 10d3:10d3 10d4:10d4 10d5:10d5 10d6:10d6 10d7:10d7 10d8:10d8
    10d9:10d9 10da:10da 10db:10db 10dc:10dc 10dd:10dd 10de:10de 10df:10df 10e0:10e0 10e1:10e1 10e2:10e2
    10e3:10e3 10e4:10e4 10e5:10e5 10e6:10e6 10e7:10e7 10e8:10e8 10e9:10e9 10ea:10ea 10eb:10eb 10ec:10ec
    10ed:10ed 10ee:10ee 10ef:10ef 10f0:10f0 10f1:10f1 10f2:10f2 10f3:10f3 10f4:10f4 10f5:10f5 10f6:10f6
    10f7:10f7 10f8:10f8 10f9:10f9 10fa:10fa 10fd:10fd 10fe:10fe 10ff:10ff 1f80:1f88 1f81:1f89 1f82:1f8a
    1f83:1f8b 1f84:1f8c 1f85:1f8d 1f86:1f8e 1f87:1f8f 1f88:1f88 1f89:1f89 1f8a:1f8a 1f8b:1f8b 1f8c:1f8c
    1f8d:1f8d 1f8e:1f8e 1f8f:1f8f 1f90:1f98 1f91:1f99 1f92:1f9a 1f93:1f9b 1f94:1f9c 1f95:1f9d 1f96:1f9e
    1f97:1f9f 1f98:1f98 1f99:1f99 1f9a:1f9a 1f9b:1f9b 1f9c:1f9c 1f9d:1f9d 1f9e:1f9e 1f9f:1f9f 1fa0:1fa8
    1fa1:1fa9 1fa2:1faa 1fa3:1fab 1fa4:1fac 1fa5:1fad 1fa6:1fae 1fa7:1faf 1fa8:1fa8 1fa9:1fa9 1faa:1faa
    1fab:1fab 1fac:1fac 1fad:1fad 1fae:1fae 1faf:1faf 1fb2:1fba,345 1fb3:1fbc 1fb4:386,345 1fb7:391,342,345
    1fbc:1fbc 1fc2:1fca,345 1fc3:1fcc 1fc4:389,345 1fc7:397,342,345 1fcc:1fcc 1ff2:1ffa,345 1ff3:1ffc
    1ff4:38f,345 1ff7:3a9,342,345 1ffc:1ffc fb00:46,66 fb01:46,69 fb02:46,6c fb03:46,66,69 fb04:46,66,6c
    fb05:53,74 fb06:53,74 fb13:544,576 fb14:544,565 fb15:544,56b fb16:54e,576 fb17:544,56d"

/-- Folded images where they differ from the lower-case ones. -/
def foldTable : Mapping := .ofText ""
  "b5:3bc df:73,73 149:2bc,6e 17f:73 1f0:6a,30c 345:3b9 390:3b9,308,301 3b0:3c5,308,301 3c2:3c3 3d0:3b2
    3d1:3b8 3d5:3c6 3d6:3c0 3f0:3ba 3f1:3c1 3f5:3b5 587:565,582 13a0:13a0 13a1:13a1 13a2:13a2 13a3:13a3
    13a4:13a4 13a5:13a5 13a6:13a6 13a7:13a7 13a8:13a8 13a9:13a9 13aa:13aa 13ab:13ab 13ac:13ac 13ad:13ad
    13ae:13ae 13af:13af 13b0:13b0 13b1:13b1 13b2:13b2 13b3:13b3 13b4:13b4 13b5:13b5 13b6:13b6 13b7:13b7
    13b8:13b8 13b9:13b9 13ba:13ba 13bb:13bb 13bc:13bc 13bd:13bd 13be:13be 13bf:13bf 13c0:13c0 13c1:13c1
    13c2:13c2 13c3:13c3 13c4:13c4 13c5:13c5 13c6:13c6 13c7:13c7 13c8:13c8 13c9:13c9 13ca:13ca 13cb:13cb
    13cc:13cc 13cd:13cd 13ce:13ce 13cf:13cf 13d0:13d0 13d1:13d1 13d2:13d2 13d3:13d3 13d4:13d4 13d5:13d5
    13d6:13d6 13d7:13d7 13d8:13d8 13d9:13d9 13da:13da 13db:13db 13dc:13dc 13dd:13dd 13de:13de 13df:13df
    13e0:13e0 13e1:13e1 13e2:13e2 13e3:13e3 13e4:13e4 13e5:13e5 13e6:13e6 13e7:13e7 13e8:13e8 13e9:13e9
    13ea:13ea 13eb:13eb 13ec:13ec 13ed:13ed 13ee:13ee 13ef:13ef 13f0:13f0 13f1:13f1 13f2:13f2 13f3:13f3
    13f4:13f4 13f5:13f5 13f8:13f0 13f9:13f1 13fa:13f2 13fb:13f3 13fc:13f4 13fd:13f5 1c80:432 1c81:434 1c82:43e
    1c83:441 1c84:442 1c85:442 1c86:44a 1c87:463 1c88:a64b 1e96:68,331 1e97:74,308 1e98:77,30a 1e99:79,30a
    1e9a:61,2be 1e9b:1e61 1e9e:73,73 1f50:3c5,313 1f52:3c5,313,300 1f54:3c5,313,301 1f56:3c5,313,342
    1f80:1f00,3b9 1f81:1f01,3b9 1f82:1f02,3b9 1f83:1f03,3b9 1f84:1f04,3b9 1f85:1f05,3b9 1f86:1f06,3b9
    1f87:1f07,3b9 1f88:1f00,3b9 1f89:1f01,3b9 1f8a:1f02,3b9 1f8b:1f03,3b9 1f8c:1f04,3b9 1f8d:1f05,3b9
    1f8e:1f06,3b9 1f8f:1f07,3b9 1f90:1f20,3b9 1f91:1f21,3b9 1f92:1f22,3b9 1f93:1f23,3b9 1f94:1f24,3b9
    1f95:1f25,3b9 1f96:1f26,3b9 1f97:1f27,3b9 1f98:1f20,3b9 1f99:1f21,3b9 1f9a:1f22,3b9 1f9b:1f23,3b9
    1f9c:1f24,3b9 1f9d:1f25,3b9 1f9e:1f26,3b9 1f9f:1f27,3b9 1fa0:1f60,3b9 1fa1:1f61,3b9 1fa2:1f62,3b9
    1fa3:1f63,3b9 1fa4:1f64,3b9 1fa5:1f65,3b9 1fa6:1f66,3b9 1fa7:1f67,3b9 1fa8:1f60,3b9 1fa9:1f61,3b9
    1faa:1f62,3b9 1fab:1f63,3b9 1fac:1f64,3b9 1fad:1f65,3b9 1fae:1f66,3b9 1faf:1f67,3b9 1fb2:1f70,3b9
    1fb3:3b1,3b9 1fb4:3ac,3b9 1fb6:3b1,342 1fb7:3b1,342,3b9 1fbc:3b1,3b9 1fbe:3b9 1fc2:1f74,3b9 1fc3:3b7,3b9
    1fc4:3ae,3b9 1fc6:3b7,342 1fc7:3b7,342,3b9 1fcc:3b7,3b9 1fd2:3b9,308,300 1fd3:3b9,308,301 1fd6:3b9,342
    1fd7:3b9,308,342 1fe2:3c5,308,300 1fe3:3c5,308,301 1fe4:3c1,313 1fe6:3c5,342 1fe7:3c5,308,342 1ff2:1f7c,3b9
    1ff3:3c9,3b9 1ff4:3ce,3b9 1ff6:3c9,342 1ff7:3c9,342,3b9 1ffc:3c9,3b9 ab70:13a0 ab71:13a1 ab72:13a2
    ab73:13a3 ab74:13a4 ab75:13a5 ab76:13a6 ab77:13a7 ab78:13a8 ab79:13a9 ab7a:13aa ab7b:13ab ab7c:13ac
    ab7d:13ad ab7e:13ae ab7f:13af ab80:13b0 ab81:13b1 ab82:13b2 ab83:13b3 ab84:13b4 ab85:13b5 ab86:13b6
    ab87:13b7 ab88:13b8 ab89:13b9 ab8a:13ba ab8b:13bb ab8c:13bc ab8d:13bd ab8e:13be ab8f:13bf ab90:13c0
    ab91:13c1 ab92:13c2 ab93:13c3 ab94:13c4 ab95:13c5 ab96:13c6 ab97:13c7 ab98:13c8 ab99:13c9 ab9a:13ca
    ab9b:13cb ab9c:13cc ab9d:13cd ab9e:13ce ab9f:13cf aba0:13d0 aba1:13d1 aba2:13d2 aba3:13d3 aba4:13d4
    aba5:13d5 aba6:13d6 aba7:13d7 aba8:13d8 aba9:13d9 abaa:13da abab:13db abac:13dc abad:13dd abae:13de
    abaf:13df abb0:13e0 abb1:13e1 abb2:13e2 abb3:13e3 abb4:13e4 abb5:13e5 abb6:13e6 abb7:13e7 abb8:13e8
    abb9:13e9 abba:13ea abbb:13eb abbc:13ec abbd:13ed abbe:13ee abbf:13ef fb00:66,66 fb01:66,69 fb02:66,6c
    fb03:66,66,69 fb04:66,66,6c fb05:73,74 fb06:73,74 fb13:574,576 fb14:574,565 fb15:574,56b fb16:57e,576
    fb17:574,56d"

/-- The upper-case form of a character. -/
def upper (c : Char) : List Char :=
  if c.toNat < 128 then [c.toUpper] else (upperTable.find? c).getD [c]

/-- The lower-case form of a character that does not end a word. -/
def lower (c : Char) : List Char :=
  if c.toNat < 128 then [c.toLower] else (lowerTable.find? c).getD [c]

/-- The form of a character that begins a word. -/
def title (c : Char) : List Char :=
  if c.toNat < 128 then [c.toUpper] else (titleTable.find? c).getD (upper c)

/-- The form in which characters that differ in case only agree. -/
def fold (c : Char) : List Char :=
  if c.toNat < 128 then [c.toLower] else (foldTable.find? c).getD (lower c)

/-- Whether the next character that is not skipped, if any, has case. -/
def meetsCased (cs : List Char) : Bool :=
  match cs.dropWhile caseIgnorables.contains with
  | c :: _ => isCased c
  | [] => false

/-- The lower-case form of `c` between the characters `before` it (nearest first) and those `after` it. -/
def lowerWithin (before : List Char) (c : Char) (after : List Char) : List Char :=
  if c == 'Σ' then [if meetsCased before && !meetsCased after then 'ς' else 'σ'] else lower c

/-- Lower case throughout. -/
def lowerAll (cs : List Char) : List Char := go [] cs
where
  go (before : List Char) : List Char → List Char
    | [] => []
    | c :: after => lowerWithin before c after ++ go (c :: before) after

def upperAll (cs : List Char) : List Char := cs.flatMap upper

def foldAll (cs : List Char) : List Char := cs.flatMap fold

/-- Each run of cased characters begins in title case and goes on in lower case. -/
def titleAll (cs : List Char) : List Char := go [] false cs
where
  go (before : List Char) (inWord : Bool) : List Char → List Char
    | [] => []
    | c :: after =>
      (if inWord then lowerWithin before c after else title c) ++ go (c :: before) (isCased c) after

/-- The first character in title case, the rest in lower case. -/
def capitalized : List Char → List Char
  | [] => []
  | c :: cs => title c ++ lowerAll.go [c] cs

/-- Upper case becomes lower case and lower case upper case. -/
def swapAll (cs : List Char) : List Char := go [] cs
where
  go (before : List Char) : List Char → List Char
    | [] => []
    | c :: after =>
      (if isUpper c then lowerWithin before c after else if isLower c then upper c else [c]) ++
        go (c :: before) after

/-- Has cased characters, none of which is lower or title case. -/
def allUpper (cs : List Char) : Bool :=
  cs.all (fun c => !(isLower c || isTitle c)) && cs.any isUpper

/-- Has cased characters, none of which is upper or title case. -/
def allLower (cs : List Char) : Bool :=
  cs.all (fun c => !(isUpper c || isTitle c)) && cs.any isLower

/-- Every run of cased characters begins in upper or title case and goes on in lower case, and there is one. -/
def allTitle (cs : List Char) : Bool := go false false cs
where
  go (inWord found : Bool) : List Char → Bool
    | [] => found
    | c :: cs =>
      if isUpper c || isTitle c then if inWord then false else go true true cs
      else if isLower c then if inWord then go true true cs else false
      else go false found cs

end NestedSite.Text
