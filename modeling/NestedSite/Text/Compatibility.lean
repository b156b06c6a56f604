import NestedSite.Text.Mapping

/-!
# Compatible spellings

Two identifiers are one name when their compatibility compositions agree (normalization form KC of Unicode 14): every
character is decomposed as far as it goes, combining marks are put into their canonical order, and what composes is
composed again. The decompositions are given for the characters that identifiers may hold; Hangul syllables are
decomposed and composed by arithmetic.
-/

namespace NestedSite.Text

/-- Full compatibility decompositions. -/
def decompositions : Mapping := .ofText
  "aa:-73 b5:775 ba:-75 17f:-268 2b0:-584 2b1:-75 2b2:-584 2b3:-577 2b4:-59 2b5:-58 2b6:-53 2b7:-576 2b8:-575
    2e0:-125 2e1:-629 2e2:-623 2e3:-619 2e4:-79 340-341:-64 343:-48 374:-187 387:-720 3d0:-30 3d1:-25 3d2:-45
    3d5:-15 3d6:-22 3f0:-54 3f1-3f2:-48 3f4:-92 3f5:-64 3f9:-86 10fc:-32 1d2c:-7403 1d2d:-7271 1d2e:-7404
    1d30-1d31:-7404 1d32:-7076 1d33-1d3a:-7404 1d3c:-7405 1d3d:-6939 1d3e:-7406 1d3f:-7405 1d40-1d41:-7404
    1d42:-7403 1d43:-7394 1d44-1d45:-6900 1d46:-68 1d47:-7397 1d48-1d49:-7396 1d4a:-6897 1d4b-1d4c:-6896
    1d4d:-7398 1d4f:-7396 1d50:-7395 1d51:-7174 1d52:-7395 1d53:-6911 1d54-1d55:-62 1d56:-7398 1d57-1d58:-7395
    1d59:-60 1d5a:-6891 1d5b:-7397 1d5c:-55 1d5d-1d5f:-6571 1d60-1d61:-6554 1d62:-7417 1d63:-7409
    1d64-1d65:-7407 1d66-1d67:-6580 1d68:-6567 1d69-1d6a:-6563 1d78:-6459 1d9b:-6985 1d9c:-7481 1d9d:-6984
    1d9e:-7342 1d9f:-6979 1da0:-7482 1da1:-6978 1da2:-6977 1da3:-6974 1da4-1da6:-6972 1da7:-44 1da8:-6923
    1da9:-6972 1daa:-37 1dab:-6924 1dac:-6971 1dad:-6973 1dae-1db1:-6972 1db2:-6970 1db3-1db4:-6961 1db5:-7178
    1db6-1db7:-6957 1db8:-156 1db9-1dba:-6958 1dbb:-7489 1dbc-1dbe:-6956 1dbf:-6663 1fbe:-7173 2071:-8200
    207f:-8209 2090:-8239 2091:-8236 2092:-8227 2093:-8219 2094:-7739 2095:-8237 2096-2099:-8235 209a:-8234
    209b-209c:-8232 2102:-8383 2107:-8055 210a:-8355 210b:-8387 210c:-8388 210d:-8389 210e:-8358 210f:-8168
    2110:-8391 2111:-8392 2112:-8390 2113:-8359 2115:-8391 2119-211b:-8393 211c:-8394 211d:-8395 2124:-8394
    2126:-7549 2128:-8398 212a:-8415 212c-212d:-8426 212f:-8394 2130-2131:-8427 2133:-8422 2134:-8389
    2135-2138:-7013 2139:-8400 213c:-7548 213d:-7562 213e:-7595 213f:-7583 2145:-8449 2146-2147:-8418
    2148-2149:-8415 2160:-8471 2164:-8462 2169:-8465 216c:-8480 216d-216e:-8490 216f:-8482 2170:-8455
    2174:-8446 2179:-8449 217c:-8464 217d-217e:-8474 217f:-8466 2c7c:-11282 2c7d:-11303 2d6f:-14 3038:8969
    3039-303a:8971 3131-3132:-8241 3133:-8073 3134:-8242 3135-3136:-8073 3137-3139:-8244 313a-313f:-8074
    3140:-8230 3141-3143:-8251 3144:-8227 3145-314e:-8252 314f-3163:-8174 3164:-8196 3165-3166:-8273
    3167-3168:-8096 3169:-8093 316a:-8092 316b:-8088 316c:-8085 316d:-8084 316e:-8274 316f:-8082 3170:-8081
    3171-3172:-8276 3173:-8275 3174-3175:-8274 3176:-8271 3177:-8270 3178-317c:-8269 317d:-8267 317e:-8264
    317f:-8255 3180:-8249 3181:-8245 3182-3183:-8081 3184-3186:-8237 3187-3188:-8195 3189:-8193 318a-318b:-8185
    318c:-8184 318d:-8175 318e:-8173 a69c:-41554 a69d:-41553 a770:-1 a7f2:-42927 a7f3:-42925 a7f4:-42915
    a7f8:-42706 a7f9:-42662 ab5c:-1077 ab5d:-38 ab5e:-43251 ab5f:-13 ab69:-43228 f900:-27832 f901:-37389
    f902:-27192 f903:-27707 f904:-35379 f905:-43731 f906:-42273 f907:-22891 f908:-22892 f909:-40888 f90a:-26425
    f90b:-41860 f90c:-40900 f90d:-38679 f90e:-33445 f90f:-31114 f910:-29393 f911:-29015 f912:-28698 f913:-26756
    f914:-36626 f915:-35834 f916:-34877 f917:-34105 f918:-29915 f919:-26543 f91a:-24361 f91b:-43673 f91c:-42407
    f91d:-36377 f91e:-34563 f91f:-29426 f920:-23298 f921:-39889 f922:-35127 f923:-29526 f924:-28608 f925:-38492
    f926:-30542 f927:-28936 f928:-39518 f929:-37394 f92a:-35776 f92b:-34351 f92c:-26718 f92d:-43431 f92e:-42871
    f92f:-42577 f930:-37996 f931:-36446 f932:-34594 f933:-33356 f934:-31027 f935:-29487 f936:-29402 f937:-27464
    f938:-25094 f939:-24010 f93a:-23360 f93b:-32943 f93c:-32701 f93d:-31645 f93e:-30069 f93f:-26171 f940:-23233
    f941:-28267 f942:-41059 f943:-39487 f944:-31972 f945:-30919 f946:-34532 f947:-32893 f948:-27782 f949:-25170
    f94a:-41074 f94b:-40169 f94c:-36665 f94d:-35699 f94e:-35391 f94f:-31776 f950:-31513 f951:-25350 f952:-42624
    f953:-30920 f954:-42872 f955:-42889 f956:-32570 f957:-31641 f958:-30055 f959:-25316 f95a:-28122 f95b:-38540
    f95c:-36698 f95d:-28255 f95e:-43813 f95f:-40312 f960:-39246 f961:-34266 f962:-33778 f963:-42572 f964:-32873
    f965:-43430 f966:-39357 f967:-43866 f968:-35996 f969:-37873 f96a:-31816 f96b:-42408 f96c:-41230 f96d:-33388
    f96e:-29989 f96f:-28357 f970:-36278 f971:-27073 f972:-36074 f973:-38517 f974:-30351 f975:-38357 f976:-33809
    f977:-43721 f978:-43023 f979:-42928 f97a:-37113 f97b:-31892 f97c:-30477 f97d:-28331 f97e:-26543 f97f:-42634
    f980:-42302 f981:-40974 f982:-39574 f983:-37822 f984:-35206 f985:-32859 f986:-25561 f987:-24349 f988:-23281
    f989:-23227 f98a:-42735 f98b:-37573 f98c:-36373 f98d:-27179 f98e:-39706 f98f:-38911 f990:-38800 f991:-38135
    f992:-35439 f993:-34890 f994:-34059 f995:-32715 f996:-31650 f997:-31016 f998:-27250 f999:-29867 f99a:-26999
    f99b:-26193 f99c:-42885 f99d:-42746 f99e:-42209 f99f:-35031 f9a0:-28894 f9a1:-28407 f9a2:-39641 f9a3:-39342
    f9a4:-38441 f9a5:-36343 f9a6:-32104 f9a7:-34354 f9a8:-43716 f9a9:-41648 f9aa:-40387 f9ab:-39921 f9ac:-39312
    f9ad:-34299 f9ae:-34117 f9af:-31253 f9b0:-31082 f9b1:-26493 f9b2:-25276 f9b3:-25195 f9b4:-24988 f9b5:-43562
    f9b6:-32776 f9b7:-26627 f9b8:-25344 f9b9:-39128 f9ba:-43828 f9bb:-43233 f9bc:-40398 f9bd:-40318 f9be:-37925
    f9bf:-36797 f9c0:-34802 f9c1:-33663 f9c2:-29894 f9c3:-26951 f9c4:-23095 f9c5:-37693 f9c6:-25496 f9c7:-42814
    f9c8:-37453 f9c9:-37334 f9ca:-35977 f9cb:-35631 f9cc:-34243 f9cd:-33908 f9ce:-33123 f9cf:-31935 f9d0:-24946
    f9d1:-43108 f9d2:-38820 f9d3:-25435 f9d4:-43433 f9d5:-40124 f9d6:-35820 f9d7:-27309 f9d8:-39501 f9d9:-39061
    f9da:-37315 f9db:-34388 f9dc:-25430 f9dd:-42932 f9de:-42447 f9df:-40314 f9e0:-37837 f9e1:-37523 f9e2:-37178
    f9e3:-36094 f9e4:-34270 f9e5:-33795 f9e6:-31341 f9e7:-28952 f9e8:-28935 f9e9:-26653 f9ea:-25352 f9eb:-42668
    f9ec:-35634 f9ed:-42448 f9ee:-34846 f9ef:-34135 f9f0:-29686 f9f1:-25422 f9f2:-23963 f9f3:-23380 f9f4:-37469
    f9f5:-35882 f9f6:-30734 f9f7:-32556 f9f8:-32472 f9f9:-32103 f9fa:-34618 f9fb:-35170 f9fc:-28324 f9fd:-43837
    f9fe:-30408 f9ff:-42949 fa00:-43001 fa01:-39771 fa02:-38703 fa03:-32045 fa04:-40575 fa05:-36071 fa06:-37714
    fa07:-27340 fa08:-29116 fa09:-25532 fa0a:-28799 fa0b:-39736 fa0c:-43212 fa0d:-42061 fa10:-41398 fa12:-37790
    fa15:-43063 fa16:-34540 fa17:-33613 fa18:-32988 fa19:-32955 fa1a:-32949 fa1b:-32908 fa1c:-25286 fa1d:-32095
    fa1e:-31329 fa20:-29710 fa22:-28458 fa25:-27117 fa26:-26921 fa2a:-24891 fa2b:-24879 fa2c:-24836 fa2d:-23673
    fa2e:-26960 fa2f:-25464 fa30:-43650 fa31:-43338 fa32:-43237 fa33:-42858 fa34:-42832 fa35:-42724 fa36:-42137
    fa37:-42033 fa38:-41936 fa39:-41465 fa3a:-41362 fa3b:-40407 fa3c:-40398 fa3d:-39337 fa3e:-39126 fa3f:-39089
    fa40:-38990 fa41:-38130 fa42:-37984 fa43:-37810 fa44:-37311 fa45:-36046 fa46:-35884 fa47:-35621 fa48:-35034
    fa49:-34846 fa4a:-34344 fa4b:-33210 fa4c:-33038 fa4d:-33028 fa4e:-33030 fa4f:-33023 fa50:-33018 fa51:-33012
    fa52-fa53:-32965 fa54:-32788 fa55:-32724 fa56:-32406 fa57:-31843 fa58:-31823 fa59:-31768 fa5a:-31464
    fa5b:-31318 fa5c:-30831 fa5d:-30692 fa5e:-30693 fa5f:-30216 fa60:-29008 fa61:-28875 fa62:-28513 fa63:-28458
    fa64:-28049 fa65:-27997 fa66:-27312 fa67:-27183 fa68:-25477 fa69:-25194 fa6a:-25135 fa6b:-39414 fa6c:84098
    fa6d:-30805 fa70:-44106 fa71:-43196 fa72:-43274 fa73:-43763 fa74:-43311 fa75:-43253 fa76:-42927 fa77:-42877
    fa78:-42203 fa79:-42276 fa7a:-42209 fa7b:-42137 fa7c:-41506 fa7d:-41418 fa7e:-41274 fa7f:-41259 fa80:-40990
    fa81:-40793 fa82:-39856 fa83:-39850 fa84:-39707 fa85:-39640 fa86:-39342 fa87:-39225 fa88:-39296 fa89:-39163
    fa8a:-39210 fa8b:-39065 fa8c:-39000 fa8d:-38601 fa8e:-38514 fa8f:-38461 fa90:-38202 fa91:-37917 fa92:-37755
    fa93:-37752 fa94:-37694 fa95:-36636 fa96:-36572 fa97:-36182 fa98:-35773 fa99:-35790 fa9a:-35704 fa9b:-35453
    fa9c:-35118 fa9d:-33526 fa9e:-34921 fa9f:-34800 faa0:-34678 faa1:-34352 faa2:-34204 faa3:-34152 faa4:-33927
    faa5:-33926 faa6:-33756 faa7:-33740 faa8:-33716 faa9:-33631 faaa:-33642 faab:-33247 faac:-32763 faad:-32493
    faae:-32307 faaf:-32084 fab0:-31932 fab1:-31603 fab2:-31405 fab3:-30561 fab4:-30405 fab5:-29500 fab6:-29045
    fab7:-28977 fab8:-28962 fab9:-28666 faba:-28610 fabb:-28656 fabc:-28603 fabd:-28607 fabe:-28625 fabf:-28550
    fac0:-28470 fac1:-28089 fac2:-27530 fac3:-27217 fac4:-26923 fac5:-26703 fac6:-25674 fac7:-25572 fac8:-25458
    fac9:-25326 faca:-25291 facb:-25280 facc:-25233 facd:-24507 face:-23346 facf:77179 fad0:77172 fad1:80132
    fad2:-48949 fad3:-47803 fad4:-47771 fad5:87924 fad6:90618 fad7:99324 fad8:-23445 fad9:-23371 fb20:-62782
    fb21:-62801 fb22-fb23:-62799 fb24-fb26:-62793 fb27:-62783 fb28:-62782 fb50:-62687 fb51:-62688 fb52:-62679
    fb53:-62680 fb54:-62681 fb55:-62682 fb56:-62680 fb57:-62681 fb58:-62682 fb59:-62683 fb5a:-62682 fb5b:-62683
    fb5c:-62684 fb5d:-62685 fb5e:-62692 fb5f:-62693 fb60:-62694 fb61:-62695 fb62:-62691 fb63:-62692 fb64:-62693
    fb65:-62694 fb66:-62701 fb67:-62702 fb68:-62703 fb69:-62704 fb6a:-62662 fb6b:-62663 fb6c:-62664 fb6d:-62665
    fb6e:-62664 fb6f:-62665 fb70:-62666 fb71:-62667 fb72:-62702 fb73:-62703 fb74:-62704 fb75:-62705 fb76:-62707
    fb77:-62708 fb78:-62709 fb79:-62710 fb7a:-62708 fb7b:-62709 fb7c:-62710 fb7d-fb7e:-62711 fb7f:-62712
    fb80:-62713 fb81:-62714 fb82:-62709 fb83:-62710 fb84:-62712 fb85:-62713 fb86:-62712 fb87:-62713 fb88:-62720
    fb89:-62721 fb8a:-62706 fb8b:-62707 fb8c:-62715 fb8d:-62716 fb8e:-62693 fb8f:-62694 fb90:-62695 fb91:-62696
    fb92:-62691 fb93:-62692 fb94:-62693 fb95:-62694 fb96:-62691 fb97:-62692 fb98:-62693 fb99:-62694 fb9a:-62697
    fb9b:-62698 fb9c:-62699 fb9d:-62700 fb9e:-62692 fb9f-fba0:-62693 fba1:-62694 fba2:-62695 fba3:-62696
    fba6:-62693 fba7:-62694 fba8:-62695 fba9:-62696 fbaa:-62700 fbab:-62701 fbac:-62702 fbad:-62703 fbae:-62684
    fbaf:-62685 fbd3:-62758 fbd4:-62759 fbd5:-62760 fbd6:-62761 fbd7:-62736 fbd8:-62737 fbd9:-62739 fbda:-62740
    fbdb:-62739 fbdc:-62740 fbde:-62739 fbdf:-62740 fbe0:-62747 fbe1:-62748 fbe2:-62745 fbe3:-62746 fbe4:-62740
    fbe5:-62741 fbe6:-62742 fbe7:-62743 fbe8:-62879 fbe9:-62880 fbfc:-62768 fbfd:-62769 fbfe:-62770 fbff:-62771
    fe33:-64980 fe34:-64981 fe4d:-65006 fe4e:-65007 fe4f:-65008 fe80:-63583 fe8d:-63590 fe8e-fe8f:-63591
    fe90:-63592 fe91:-63593 fe92-fe93:-63594 fe94-fe95:-63595 fe96:-63596 fe97:-63597 fe98-fe99:-63598
    fe9a:-63599 fe9b:-63600 fe9c-fe9d:-63601 fe9e:-63602 fe9f:-63603 fea0-fea1:-63604 fea2:-63605 fea3:-63606
    fea4-fea5:-63607 fea6:-63608 fea7:-63609 fea8-fea9:-63610 feaa-feab:-63611 feac-fead:-63612
    feae-feaf:-63613 feb0-feb1:-63614 feb2:-63615 feb3:-63616 feb4-feb5:-63617 feb6:-63618 feb7:-63619
    feb8-feb9:-63620 feba:-63621 febb:-63622 febc-febd:-63623 febe:-63624 febf:-63625 fec0-fec1:-63626
    fec2:-63627 fec3:-63628 fec4-fec5:-63629 fec6:-63630 fec7:-63631 fec8-fec9:-63632 feca:-63633 fecb:-63634
    fecc-fecd:-63635 fece:-63636 fecf:-63637 fed0:-63638 fed1:-63632 fed2:-63633 fed3:-63634 fed4-fed5:-63635
    fed6:-63636 fed7:-63637 fed8-fed9:-63638 feda:-63639 fedb:-63640 fedc-fedd:-63641 fede:-63642 fedf:-63643
    fee0-fee1:-63644 fee2:-63645 fee3:-63646 fee4-fee5:-63647 fee6:-63648 fee7:-63649 fee8-fee9:-63650
    feea:-63651 feeb:-63652 feec-feed:-63653 feee-feef:-63654 fef0-fef1:-63655 fef2:-63656 fef3:-63657
    fef4:-63658 ff10-ff19:-65248 ff21-ff3a:-65248 ff3f:-65248 ff41-ff5a:-65248 ff66:-52852 ff67:-52934
    ff68:-52933 ff69:-52932 ff6a:-52931 ff6b:-52930 ff6c:-52873 ff6d:-52872 ff6e:-52871 ff6f:-52908 ff70:-52852
    ff71:-52943 ff72:-52942 ff73:-52941 ff74:-52940 ff75-ff76:-52939 ff77:-52938 ff78:-52937 ff79:-52936
    ff7a:-52935 ff7b:-52934 ff7c:-52933 ff7d:-52932 ff7e:-52931 ff7f:-52930 ff80:-52929 ff81:-52928 ff82:-52926
    ff83:-52925 ff84:-52924 ff85-ff8a:-52923 ff8b:-52921 ff8c:-52919 ff8d:-52917 ff8e:-52915 ff8f-ff93:-52913
    ff94:-52912 ff95:-52911 ff96-ff9b:-52910 ff9c:-52909 ff9d:-52906 ff9e-ff9f:-52997 ffa0:-60992
    ffa1-ffa2:-61089 ffa3:-60921 ffa4:-61090 ffa5-ffa6:-60921 ffa7-ffa9:-61092 ffaa-ffaf:-60922 ffb0:-61078
    ffb1-ffb3:-61099 ffb4:-61075 ffb5-ffbe:-61100 ffc2-ffc7:-61025 ffca-ffcf:-61027 ffd2-ffd7:-61029
    ffda-ffdc:-61031 10781-10782:-66737 10783:-67229 10784:-66795 10785:-66866 10787:-66788 10788:-23586
    10789:-66788 1078a:-66790 1078b-1078c:-66869 1078d:-59900 1078e:-66870 1078f:-66865 10790:-66791
    10791:-66861 10792:-66864 10793:-66867 10794:-66809 10795:-67182 10796:-66810 10797:-66864 10798:-66836
    10799-1079a:-66799 1079b:-66863 1079c:55144 1079d:-24591 1079e:-66864 1079f:55142 107a0:-66834 107a1:55141
    107a2:-67242 107a3-107a4:-66861 107a5:-67380 107a6:-66860 107a7:55137 107a8-107a9:-66859 107aa:-66858
    107ab:-66819 107ac:-66822 107ad:-23622 107ae:-66823 107af:-66855 107b0:-56127 107b2:-66851
    107b3-107b4:-66834 107b5:-66845 107b6-107b8:-67062 107b9:55121 107ba:55140 1d400-1d419:-119743
    1d41a-1d433:-119737 1d434-1d44d:-119795 1d44e-1d454:-119789 1d456-1d467:-119789 1d468-1d481:-119847
    1d482-1d49b:-119841 1d49c:-119899 1d49e-1d49f:-119899 1d4a2:-119899 1d4a5-1d4a6:-119899 1d4a9-1d4ac:-119899
    1d4ae-1d4b5:-119899 1d4b6-1d4b9:-119893 1d4bb:-119893 1d4bd-1d4c3:-119893 1d4c5-1d4cf:-119893
    1d4d0-1d4e9:-119951 1d4ea-1d503:-119945 1d504-1d505:-120003 1d507-1d50a:-120003 1d50d-1d514:-120003
    1d516-1d51c:-120003 1d51e-1d537:-119997 1d538-1d539:-120055 1d53b-1d53e:-120055 1d540-1d544:-120055
    1d546:-120055 1d54a-1d550:-120055 1d552-1d56b:-120049 1d56c-1d585:-120107 1d586-1d59f:-120101
    1d5a0-1d5b9:-120159 1d5ba-1d5d3:-120153 1d5d4-1d5ed:-120211 1d5ee-1d607:-120205 1d608-1d621:-120263
    1d622-1d63b:-120257 1d63c-1d655:-120315 1d656-1d66f:-120309 1d670-1d689:-120367 1d68a-1d6a3:-120361
    1d6a4:-120179 1d6a5:-119918 1d6a8-1d6b8:-119575 1d6b9:-119585 1d6ba-1d6c0:-119575 1d6c2-1d6da:-119569
    1d6dc:-119591 1d6dd:-119589 1d6de:-119588 1d6df:-119577 1d6e0:-119583 1d6e1:-119585 1d6e2-1d6f2:-119633
    1d6f3:-119643 1d6f4-1d6fa:-119633 1d6fc-1d714:-119627 1d716:-119649 1d717:-119647 1d718:-119646
    1d719:-119635 1d71a:-119641 1d71b:-119643 1d71c-1d72c:-119691 1d72d:-119701 1d72e-1d734:-119691
    1d736-1d74e:-119685 1d750:-119707 1d751:-119705 1d752:-119704 1d753:-119693 1d754:-119699 1d755:-119701
    1d756-1d766:-119749 1d767:-119759 1d768-1d76e:-119749 1d770-1d788:-119743 1d78a:-119765 1d78b:-119763
    1d78c:-119762 1d78d:-119751 1d78e:-119757 1d78f:-119759 1d790-1d7a0:-119807 1d7a1:-119817
    1d7a2-1d7a8:-119807 1d7aa-1d7c2:-119801 1d7c4:-119823 1d7c5:-119821 1d7c6:-119820 1d7c7:-119809
    1d7c8:-119815 1d7c9:-119817 1d7ca-1d7cb:-119790 1d7ce-1d7d7:-120734 1d7d8-1d7e1:-120744 1d7e2-1d7eb:-120754
    1d7ec-1d7f5:-120764 1d7f6-1d7ff:-120774 1ee00-1ee01:-124889 1ee02:-124886 1ee03:-124884 1ee05:-124861
    1ee06:-124884 1ee07:-124890 1ee08:-124881 1ee09:-124863 1ee0a-1ee0d:-124871 1ee0e:-124891 1ee0f:-124886
    1ee10:-124879 1ee11:-124892 1ee12:-124880 1ee13:-124898 1ee14:-124896 1ee15-1ee16:-124907 1ee17:-124905
    1ee18:-124904 1ee19:-124899 1ee1a:-124898 1ee1b:-124897 1ee1c:-124846 1ee1d:-124771 1ee1e:-124797
    1ee1f:-124848 1ee21:-124921 1ee22:-124918 1ee24:-124893 1ee27:-124922 1ee29:-124895 1ee2a-1ee2d:-124903
    1ee2e:-124923 1ee2f:-124918 1ee30:-124911 1ee31:-124924 1ee32:-124912 1ee34:-124928 1ee35-1ee36:-124939
    1ee37:-124937 1ee39:-124931 1ee3b:-124929 1ee42:-124950 1ee47:-124954 1ee49:-124927 1ee4b:-124935
    1ee4d:-124935 1ee4e:-124955 1ee4f:-124950 1ee51:-124956 1ee52:-124944 1ee54:-124960 1ee57:-124969
    1ee59:-124963 1ee5b:-124961 1ee5d:-124835 1ee5f:-124912 1ee61:-124985 1ee62:-124982 1ee64:-124957
    1ee67:-124986 1ee68:-124977 1ee69:-124959 1ee6a:-124967 1ee6c-1ee6d:-124967 1ee6e:-124987 1ee6f:-124982
    1ee70:-124975 1ee71:-124988 1ee72:-124976 1ee74:-124992 1ee75-1ee76:-125003 1ee77:-125001 1ee79:-124995
    1ee7a:-124994 1ee7b:-124993 1ee7c:-124942 1ee7e:-124893 1ee80-1ee81:-125017 1ee82:-125014 1ee83:-125012
    1ee84-1ee85:-124989 1ee86:-125012 1ee87:-125018 1ee88:-125009 1ee89:-124991 1ee8b-1ee8d:-124999
    1ee8e:-125019 1ee8f:-125014 1ee90:-125007 1ee91:-125020 1ee92:-125008 1ee93:-125026 1ee94:-125024
    1ee95-1ee96:-125035 1ee97:-125033 1ee98:-125032 1ee99:-125027 1ee9a:-125026 1ee9b:-125025 1eea1:-125049
    1eea2:-125046 1eea3:-125044 1eea5:-125021 1eea6:-125044 1eea7:-125050 1eea8:-125041 1eea9:-125023
    1eeab-1eead:-125031 1eeae:-125051 1eeaf:-125046 1eeb0:-125039 1eeb1:-125052 1eeb2:-125040 1eeb3:-125058
    1eeb4:-125056 1eeb5-1eeb6:-125067 1eeb7:-125065 1eeb8:-125064 1eeb9:-125059 1eeba:-125058 1eebb:-125057
    1fbf0-1fbf9:-129984 2f800:-174531 2f801:-174537 2f802:-174529 2f803:-63201 2f804:-174244 2f805:-174167
    2f806:-174155 2f807:-174085 2f808:-173966 2f809:-173936 2f80a:-173859 2f80b:-173884 2f80c:-181102
    2f80d:-61907 2f80e:-173761 2f80f:-173755 2f810:-173740 2f811:-173722 2f812:-62198 2f813:-181082
    2f814:-173741 2f815:-173704 2f816:-62155 2f817:-173696 2f818:-173684 2f819:-174413 2f81a:-173678
    2f81b:-173670 2f81c:-26173 2f81d:-173608 2f81e:-173595 2f81f:-181056 2f820:-173541 2f821:-173531
    2f822:-173488 2f823:-173484 2f824:-181007 2f825:-173406 2f826:-173405 2f827:-173379 2f828:-173358
    2f829-2f82a:-173348 2f82b:-173332 2f82c:-173283 2f82d:-173276 2f82e:-173268 2f82f:-173244 2f830:-173235
    2f831:-173234 2f832:-173235 2f833:-173236 2f834:-60936 2f835:-165829 2f836:-173164 2f837:-173144
    2f838:-60629 2f839:-173134 2f83a:-173129 2f83b:-173109 2f83c:-172958 2f83d:-173061 2f83e:-173046
    2f83f:-173015 2f840:-172958 2f841:-172875 2f842:-172850 2f843:-172784 2f844:-172769 2f845:-172737
    2f846:-172738 2f847:-172718 2f848:-172701 2f849:-172694 2f84a:-172680 2f84b:-172341 2f84c:-172614
    2f84d:-172342 2f84e:-172541 2f84f:-172507 2f850:-173641 2f851:-171875 2f852:-172164 2f853:-172127
    2f854:-172103 2f855:-172234 2f856:-172068 2f857:-172070 2f858:-171948 2f859:-58229 2f85a:-171880
    2f85b:-171876 2f85c:-171862 2f85d:-171843 2f85e:-171836 2f85f:-171773 2f860:-57784 2f861:-57719
    2f862:-171638 2f863:-171592 2f864:-171581 2f865:-171661 2f866:-171520 2f867:-180601 2f868:-180588
    2f869:-171361 2f86a:-171308 2f86b:-171309 2f86c:-56996 2f86d:-171178 2f86e:-171158 2f86f:-171144
    2f870:-171133 2f871:-56665 2f872:-171123 2f873:-171117 2f874:-170273 2f875:-171091 2f876:-180469
    2f877:-171031 2f878:-171018 2f879:-170937 2f87a:-170989 2f87b:-55959 2f87c:-170809 2f87d:-55959
    2f87e:-170768 2f87f:-170772 2f880:-170756 2f881-2f882:-170656 2f883:-180308 2f884:-170631 2f885:-170589
    2f886:-170569 2f887:-170526 2f888:-180262 2f889:-55046 2f88a:-180238 2f88b:-170459 2f88c:-170457
    2f88d:-170455 2f88e:-170436 2f88f:-21757 2f890:-170386 2f891:-54624 2f892:-54625 2f893:-161426
    2f894:-170354 2f895:-170355 2f896:-180175 2f897:-50655 2f898:-38590 2f899:-170295 2f89a:-170287
    2f89b:-180152 2f89c:-170242 2f89d:-170192 2f89e:-170183 2f89f:-170150 2f8a0:-170015 2f8a1:-180071
    2f8a2:-180102 2f8a3:-169999 2f8a4:-53712 2f8a5:-169950 2f8a6:-169822 2f8a7:-169819 2f8a8:-169818
    2f8a9:-169821 2f8aa:-169776 2f8ab:-169757 2f8ac:-169722 2f8ad:-169737 2f8ae:-169727 2f8af:-169681
    2f8b0:-169662 2f8b1:-169659 2f8b2:-169634 2f8b3:-169624 2f8b4:-169559 2f8b5:-169476 2f8b6:-169442
    2f8b7:-169319 2f8b8:-52652 2f8b9:-169340 2f8ba:-169406 2f8bb:-169299 2f8bc:-169273 2f8bd:-169177
    2f8be:-52429 2f8bf:-169117 2f8c0:-169211 2f8c1:-169240 2f8c2:-179860 2f8c3:-169050 2f8c4:-169030
    2f8c5:-169000 2f8c6:-169039 2f8c7:-179803 2f8c8:-168825 2f8c9:-168797 2f8ca:-51392 2f8cb:-168680
    2f8cc:-168404 2f8cd:-168580 2f8ce:-179637 2f8cf:-168510 2f8d0:-179656 2f8d1:-179693 2f8d2:-173888
    2f8d3:-173886 2f8d4:-168404 2f8d5:-168505 2f8d6:-161833 2f8d7:-177406 2f8d8:-168385 2f8d9:-168382
    2f8da:-168377 2f8db:-168317 2f8dc:-168329 2f8dd:-50458 2f8de:-179605 2f8df:-168165 2f8e0:-168283
    2f8e1:-168079 2f8e2:-168029 2f8e3:-50294 2f8e4:-168022 2f8e5:-168134 2f8e6:-167890 2f8e7:-179530
    2f8e8:-167846 2f8e9:-167750 2f8ea:-167680 2f8eb:-167491 2f8ec:-49737 2f8ed:-167442 2f8ee:-179414
    2f8ef:-167374 2f8f0:-49225 2f8f1:-167325 2f8f2:-179364 2f8f3:-167297 2f8f4:-167253 2f8f5-2f8f6:-167227
    2f8f7:-48746 2f8f8:-56301 2f8f9:-48639 2f8fa:-167084 2f8fb:-48191 2f8fc:-166973 2f8fd:-166960 2f8fe:-167063
    2f8ff:-166889 2f900:-166850 2f901:-166794 2f902:-166849 2f903:-166810 2f904:-166796 2f905:-166784
    2f906:-48104 2f907:-166867 2f908:-166617 2f909:-166555 2f90a:-179159 2f90b:-166464 2f90c:-166469
    2f90d:-47676 2f90e:-166677 2f90f:-166305 2f910:-47538 2f911:-47491 2f912:-166220 2f913:-166106
    2f914:-166134 2f915:-166138 2f916:-179072 2f917:-166093 2f918:-166043 2f919:-166050 2f91a:-165997
    2f91b:-62454 2f91c:-165847 2f91d:-46778 2f91e:-165762 2f91f:-46452 2f920:-165624 2f921:-165612
    2f922:-165586 2f923:-45851 2f924:-165540 2f925:-165520 2f926:-45553 2f927:-45331 2f928:-165294
    2f929:-165278 2f92a:-178814 2f92b:-165254 2f92c:-178804 2f92d:-178805 2f92e:-165095 2f92f:-165075
    2f930:-165055 2f931:-165036 2f932:-164968 2f933:-178712 2f934:-164880 2f935:-44287 2f936:-164856
    2f937:-44197 2f938:-164808 2f939:-55194 2f93a:-164650 2f93b:-43418 2f93c:-43396 2f93d:-43257 2f93e:-178498
    2f93f:-178487 2f940:-164428 2f941:-43086 2f942:-43088 2f943:-43050 2f944:-43025 2f945-2f946:-164391
    2f947:-164392 2f948:-164350 2f949:-178448 2f94a:-164287 2f94b:-178437 2f94c:-178358 2f94d:-42288
    2f94e:-164096 2f94f:-164035 2f950:-163972 2f951:-178286 2f952:-41772 2f953:-163837 2f954:-41658
    2f955:-41616 2f956:-163783 2f957:-163692 2f958:-178217 2f959:-163609 2f95a:-163600 2f95b:-163596
    2f95c:-40928 2f95d:-40630 2f95e:-40631 2f95f:-163441 2f960:-178014 2f961:-40374 2f962:-163228 2f963:-163226
    2f964:-177981 2f965:-40165 2f966:-162964 2f967:-177863 2f968:-162944 2f969:-162950 2f96a:-162922
    2f96b:-39397 2f96c:-162825 2f96d:-177772 2f96e:-162727 2f96f:-162669 2f970:-162603 2f971:-177725
    2f972:-38730 2f973:-38700 2f974:-177691 2f975:-38556 2f976:-162300 2f977:-38457 2f978:-162275 2f979:-162175
    2f97a:-162165 2f97b:-38049 2f97c:-37977 2f97d:-162077 2f97e:-37846 2f97f:-162063 2f980:-50721 2f981:-177580
    2f982:-162000 2f983:-161920 2f984:-177529 2f985:-161863 2f986:-171729 2f987:-37344 2f988:-37331
    2f989:-50678 2f98a:-50670 2f98b:-161674 2f98c:-161672 2f98d:-158191 2f98e:-177443 2f98f:-161534
    2f990:-161541 2f991:-161524 2f992:-173791 2f993:-161506 2f994:-161505 2f995:-161496 2f996:-161456
    2f997:-36443 2f998:-161459 2f999:-161404 2f99a:-161335 2f99b:-161262 2f99c:-161401 2f99d:-161248
    2f99e:-161207 2f99f:-161096 2f9a0:-161357 2f9a1:-161239 2f9a2:-161238 2f9a3:-161223 2f9a4:-36206
    2f9a5:-35898 2f9a6:-36049 2f9a7:-177276 2f9a8:-160951 2f9a9:-160950 2f9aa:-160916 2f9ab:-34273
    2f9ac:-160840 2f9ad:-35457 2f9ae:-177233 2f9af:-177230 2f9b0:-35327 2f9b1:-35039 2f9b2:-177223
    2f9b3:-160611 2f9b4:-160600 2f9b5:-160590 2f9b6:-160589 2f9b7:-160526 2f9b8:-160560 2f9b9:-160427
    2f9ba:-160472 2f9bb:-160322 2f9bc:-160404 2f9bd:-160338 2f9be:-160312 2f9bf:-177128 2f9c0:-160223
    2f9c1:-160192 2f9c2:-177097 2f9c3:-160099 2f9c4:-160097 2f9c5:-33630 2f9c6:-159983 2f9c7:-159977
    2f9c8:-177043 2f9c9:-159951 2f9ca:-181519 2f9cb:-33053 2f9cc:-32870 2f9cd:-176911 2f9ce:-176903
    2f9cf:-159535 2f9d0:-159459 2f9d1:-159303 2f9d2:-159101 2f9d3:-32043 2f9d4:-159017 2f9d5:-158996
    2f9d6:-158907 2f9d7:-158816 2f9d8:-31401 2f9d9:-61909 2f9da:-158735 2f9db:-158751 2f9dc:-158700
    2f9dd:-61695 2f9de:-158474 2f9df:-158375 2f9e0:-29710 2f9e1:-29684 2f9e2:-158030 2f9e3:-157938
    2f9e4:-157907 2f9e5:-29367 2f9e6:-157899 2f9e7:-157615 2f9e8-2f9e9:-157457 2f9ea:-157550 2f9eb:-157170
    2f9ec:-157143 2f9ed:-28147 2f9ee:-156771 2f9ef:-176218 2f9f0:-156729 2f9f1:-27770 2f9f2:-176140
    2f9f3:-156464 2f9f4:-171074 2f9f5:-156370 2f9f6:-26801 2f9f7:-26589 2f9f8:-176010 2f9f9:-176003
    2f9fa:-156186 2f9fb:-26097 2f9fc:-175946 2f9fd:-25959 2f9fe:-156147 2f9ff:-156148 2fa00:-156119
    2fa01:-25675 2fa02:-155936 2fa03:-175824 2fa04:-155867 2fa05:-155742 2fa06:-155716 2fa07:-155657
    2fa08:-175674 2fa09:-24281 2fa0a:-155384 2fa0b:-155083 2fa0c:-154895 2fa0d:-175423 2fa0e:-175393
    2fa0f:-154792 2fa10:-22850 2fa11:-175385 2fa12:-22797 2fa13:-22533 2fa14:-22403 2fa15:-154458 2fa16:-175296
    2fa17:-154398 2fa18:-154394 2fa19:-154388 2fa1a:-154379 2fa1b:-154373 2fa1c:-154337 2fa1d:-21533"
  "c0:41,300 c1:41,301 c2:41,302 c3:41,303 c4:41,308 c5:41,30a c7:43,327 c8:45,300 c9:45,301 ca:45,302
    cb:45,308 cc:49,300 cd:49,301 ce:49,302 cf:49,308 d1:4e,303 d2:4f,300 d3:4f,301 d4:4f,302 d5:4f,303
    d6:4f,308 d9:55,300 da:55,301 db:55,302 dc:55,308 dd:59,301 e0:61,300 e1:61,301 e2:61,302 e3:61,303
    e4:61,308 e5:61,30a e7:63,327 e8:65,300 e9:65,301 ea:65,302 eb:65,308 ec:69,300 ed:69,301 ee:69,302
    ef:69,308 f1:6e,303 f2:6f,300 f3:6f,301 f4:6f,302 f5:6f,303 f6:6f,308 f9:75,300 fa:75,301 fb:75,302
    fc:75,308 fd:79,301 ff:79,308 100:41,304 101:61,304 102:41,306 103:61,306 104:41,328 105:61,328 106:43,301
    107:63,301 108:43,302 109:63,302 10a:43,307 10b:63,307 10c:43,30c 10d:63,30c 10e:44,30c 10f:64,30c
    112:45,304 113:65,304 114:45,306 115:65,306 116:45,307 117:65,307 118:45,328 119:65,328 11a:45,30c
    11b:65,30c 11c:47,302 11d:67,302 11e:47,306 11f:67,306 120:47,307 121:67,307 122:47,327 123:67,327
    124:48,302 125:68,302 128:49,303 129:69,303 12a:49,304 12b:69,304 12c:49,306 12d:69,306 12e:49,328
    12f:69,328 130:49,307 132:49,4a 133:69,6a 134:4a,302 135:6a,302 136:4b,327 137:6b,327 139:4c,301 13a:6c,301
    13b:4c,327 13c:6c,327 13d:4c,30c 13e:6c,30c 13f:4c,b7 140:6c,b7 143:4e,301 144:6e,301 145:4e,327 146:6e,327
    147:4e,30c 148:6e,30c 149:2bc,6e 14c:4f,304 14d:6f,304 14e:4f,306 14f:6f,306 150:4f,30b 151:6f,30b
    154:52,301 155:72,301 156:52,327 157:72,327 158:52,30c 159:72,30c 15a:53,301 15b:73,301 15c:53,302
    15d:73,302 15e:53,327 15f:73,327 160:53,30c 161:73,30c 162:54,327 163:74,327 164:54,30c 165:74,30c
    168:55,303 169:75,303 16a:55,304 16b:75,304 16c:55,306 16d:75,306 16e:55,30a 16f:75,30a 170:55,30b
    171:75,30b 172:55,328 173:75,328 174:57,302 175:77,302 176:59,302 177:79,302 178:59,308 179:5a,301
    17a:7a,301 17b:5a,307 17c:7a,307 17d:5a,30c 17e:7a,30c 1a0:4f,31b 1a1:6f,31b 1af:55,31b 1b0:75,31b
    1c4:44,5a,30c 1c5:44,7a,30c 1c6:64,7a,30c 1c7:4c,4a 1c8:4c,6a 1c9:6c,6a 1ca:4e,4a 1cb:4e,6a 1cc:6e,6a
    1cd:41,30c 1ce:61,30c 1cf:49,30c 1d0:69,30c 1d1:4f,30c 1d2:6f,30c 1d3:55,30c 1d4:75,30c 1d5:55,308,304
    1d6:75,308,304 1d7:55,308,301 1d8:75,308,301 1d9:55,308,30c 1da:75,308,30c 1db:55,308,300 1dc:75,308,300
    1de:41,308,304 1df:61,308,304 1e0:41,307,304 1e1:61,307,304 1e2:c6,304 1e3:e6,304 1e6:47,30c 1e7:67,30c
    1e8:4b,30c 1e9:6b,30c 1ea:4f,328 1eb:6f,328 1ec:4f,328,304 1ed:6f,328,304 1ee:1b7,30c 1ef:292,30c
    1f0:6a,30c 1f1:44,5a 1f2:44,7a 1f3:64,7a 1f4:47,301 1f5:67,301 1f8:4e,300 1f9:6e,300 1fa:41,30a,301
    1fb:61,30a,301 1fc:c6,301 1fd:e6,301 1fe:d8,301 1ff:f8,301 200:41,30f 201:61,30f 202:41,311 203:61,311
    204:45,30f 205:65,30f 206:45,311 207:65,311 208:49,30f 209:69,30f 20a:49,311 20b:69,311 20c:4f,30f
    20d:6f,30f 20e:4f,311 20f:6f,311 210:52,30f 211:72,30f 212:52,311 213:72,311 214:55,30f 215:75,30f
    216:55,311 217:75,311 218:53,326 219:73,326 21a:54,326 21b:74,326 21e:48,30c 21f:68,30c 226:41,307
    227:61,307 228:45,327 229:65,327 22a:4f,308,304 22b:6f,308,304 22c:4f,303,304 22d:6f,303,304 22e:4f,307
    22f:6f,307 230:4f,307,304 231:6f,307,304 232:59,304 233:79,304 344:308,301 386:391,301 388:395,301
    389:397,301 38a:399,301 38c:39f,301 38e:3a5,301 38f:3a9,301 390:3b9,308,301 3aa:399,308 3ab:3a5,308
    3ac:3b1,301 3ad:3b5,301 3ae:3b7,301 3af:3b9,301 3b0:3c5,308,301 3ca:3b9,308 3cb:3c5,308 3cc:3bf,301
    3cd:3c5,301 3ce:3c9,301 3d3:3a5,301 3d4:3a5,308 400:415,300 401:415,308 403:413,301 407:406,308 40c:41a,301
    40d:418,300 40e:423,306 419:418,306 439:438,306 450:435,300 451:435,308 453:433,301 457:456,308 45c:43a,301
    45d:438,300 45e:443,306 476:474,30f 477:475,30f 4c1:416,306 4c2:436,306 4d0:410,306 4d1:430,306 4d2:410,308
    4d3:430,308 4d6:415,306 4d7:435,306 4da:4d8,308 4db:4d9,308 4dc:416,308 4dd:436,308 4de:417,308 4df:437,308
    4e2:418,304 4e3:438,304 4e4:418,308 4e5:438,308 4e6:41e,308 4e7:43e,308 4ea:4e8,308 4eb:4e9,308 4ec:42d,308
    4ed:44d,308 4ee:423,304 4ef:443,304 4f0:423,308 4f1:443,308 4f2:423,30b 4f3:443,30b 4f4:427,308 4f5:447,308
    4f8:42b,308 4f9:44b,308 587:565,582 622:627,653 623:627,654 624:648,654 625:627,655 626:64a,654 675:627,674
    676:648,674 677:6c7,674 678:64a,674 6c0:6d5,654 6c2:6c1,654 6d3:6d2,654 929:928,93c 931:930,93c 934:933,93c
    958:915,93c 959:916,93c 95a:917,93c 95b:91c,93c 95c:921,93c 95d:922,93c 95e:92b,93c 95f:92f,93c 9cb:9c7,9be
    9cc:9c7,9d7 9dc:9a1,9bc 9dd:9a2,9bc 9df:9af,9bc a33:a32,a3c a36:a38,a3c a59:a16,a3c a5a:a17,a3c a5b:a1c,a3c
    a5e:a2b,a3c b48:b47,b56 b4b:b47,b3e b4c:b47,b57 b5c:b21,b3c b5d:b22,b3c b94:b92,bd7 bca:bc6,bbe bcb:bc7,bbe
    bcc:bc6,bd7 c48:c46,c56 cc0:cbf,cd5 cc7:cc6,cd5 cc8:cc6,cd6 cca:cc6,cc2 ccb:cc6,cc2,cd5 d4a:d46,d3e
    d4b:d47,d3e d4c:d46,d57 dda:dd9,dca ddc:dd9,dcf ddd:dd9,dcf,dca dde:dd9,ddf e33:e4d,e32 eb3:ecd,eb2
    edc:eab,e99 edd:eab,ea1 f43:f42,fb7 f4d:f4c,fb7 f52:f51,fb7 f57:f56,fb7 f5c:f5b,fb7 f69:f40,fb5 f73:f71,f72
    f75:f71,f74 f76:fb2,f80 f77:fb2,f71,f80 f78:fb3,f80 f79:fb3,f71,f80 f81:f71,f80 f93:f92,fb7 f9d:f9c,fb7
    fa2:fa1,fb7 fa7:fa6,fb7 fac:fab,fb7 fb9:f90,fb5 1026:1025,102e 1b06:1b05,1b35 1b08:1b07,1b35 1b0a:1b09,1b35
    1b0c:1b0b,1b35 1b0e:1b0d,1b35 1b12:1b11,1b35 1b3b:1b3a,1b35 1b3d:1b3c,1b35 1b40:1b3e,1b35 1b41:1b3f,1b35
    1b43:1b42,1b35 1e00:41,325 1e01:61,325 1e02:42,307 1e03:62,307 1e04:42,323 1e05:62,323 1e06:42,331
    1e07:62,331 1e08:43,327,301 1e09:63,327,301 1e0a:44,307 1e0b:64,307 1e0c:44,323 1e0d:64,323 1e0e:44,331
    1e0f:64,331 1e10:44,327 1e11:64,327 1e12:44,32d 1e13:64,32d 1e14:45,304,300 1e15:65,304,300 1e16:45,304,301
    1e17:65,304,301 1e18:45,32d 1e19:65,32d 1e1a:45,330 1e1b:65,330 1e1c:45,327,306 1e1d:65,327,306 1e1e:46,307
    1e1f:66,307 1e20:47,304 1e21:67,304 1e22:48,307 1e23:68,307 1e24:48,323 1e25:68,323 1e26:48,308 1e27:68,308
    1e28:48,327 1e29:68,327 1e2a:48,32e 1e2b:68,32e 1e2c:49,330 1e2d:69,330 1e2e:49,308,301 1e2f:69,308,301
    1e30:4b,301 1e31:6b,301 1e32:4b,323 1e33:6b,323 1e34:4b,331 1e35:6b,331 1e36:4c,323 1e37:6c,323
    1e38:4c,323,304 1e39:6c,323,304 1e3a:4c,331 1e3b:6c,331 1e3c:4c,32d 1e3d:6c,32d 1e3e:4d,301 1e3f:6d,301
    1e40:4d,307 1e41:6d,307 1e42:4d,323 1e43:6d,323 1e44:4e,307 1e45:6e,307 1e46:4e,323 1e47:6e,323 1e48:4e,331
    1e49:6e,331 1e4a:4e,32d 1e4b:6e,32d 1e4c:4f,303,301 1e4d:6f,303,301 1e4e:4f,303,308 1e4f:6f,303,308
    1e50:4f,304,300 1e51:6f,304,300 1e52:4f,304,301 1e53:6f,304,301 1e54:50,301 1e55:70,301 1e56:50,307
    1e57:70,307 1e58:52,307 1e59:72,307 1e5a:52,323 1e5b:72,323 1e5c:52,323,304 1e5d:72,323,304 1e5e:52,331
    1e5f:72,331 1e60:53,307 1e61:73,307 1e62:53,323 1e63:73,323 1e64:53,301,307 1e65:73,301,307 1e66:53,30c,307
    1e67:73,30c,307 1e68:53,323,307 1e69:73,323,307 1e6a:54,307 1e6b:74,307 1e6c:54,323 1e6d:74,323 1e6e:54,331
    1e6f:74,331 1e70:54,32d 1e71:74,32d 1e72:55,324 1e73:75,324 1e74:55,330 1e75:75,330 1e76:55,32d 1e77:75,32d
    1e78:55,303,301 1e79:75,303,301 1e7a:55,304,308 1e7b:75,304,308 1e7c:56,303 1e7d:76,303 1e7e:56,323
    1e7f:76,323 1e80:57,300 1e81:77,300 1e82:57,301 1e83:77,301 1e84:57,308 1e85:77,308 1e86:57,307 1e87:77,307
    1e88:57,323 1e89:77,323 1e8a:58,307 1e8b:78,307 1e8c:58,308 1e8d:78,308 1e8e:59,307 1e8f:79,307 1e90:5a,302
    1e91:7a,302 1e92:5a,323 1e93:7a,323 1e94:5a,331 1e95:7a,331 1e96:68,331 1e97:74,308 1e98:77,30a 1e99:79,30a
    1e9a:61,2be 1e9b:73,307 1ea0:41,323 1ea1:61,323 1ea2:41,309 1ea3:61,309 1ea4:41,302,301 1ea5:61,302,301
    1ea6:41,302,300 1ea7:61,302,300 1ea8:41,302,309 1ea9:61,302,309 1eaa:41,302,303 1eab:61,302,303
    1eac:41,323,302 1ead:61,323,302 1eae:41,306,301 1eaf:61,306,301 1eb0:41,306,300 1eb1:61,306,300
    1eb2:41,306,309 1eb3:61,306,309 1eb4:41,306,303 1eb5:61,306,303 1eb6:41,323,306 1eb7:61,323,306 1eb8:45,323
    1eb9:65,323 1eba:45,309 1ebb:65,309 1ebc:45,303 1ebd:65,303 1ebe:45,302,301 1ebf:65,302,301 1ec0:45,302,300
    1ec1:65,302,300 1ec2:45,302,309 1ec3:65,302,309 1ec4:45,302,303 1ec5:65,302,303 1ec6:45,323,302
    1ec7:65,323,302 1ec8:49,309 1ec9:69,309 1eca:49,323 1ecb:69,323 1ecc:4f,323 1ecd:6f,323 1ece:4f,309
    1ecf:6f,309 1ed0:4f,302,301 1ed1:6f,302,301 1ed2:4f,302,300 1ed3:6f,302,300 1ed4:4f,302,309 1ed5:6f,302,309
    1ed6:4f,302,303 1ed7:6f,302,303 1ed8:4f,323,302 1ed9:6f,323,302 1eda:4f,31b,301 1edb:6f,31b,301
    1edc:4f,31b,300 1edd:6f,31b,300 1ede:4f,31b,309 1edf:6f,31b,309 1ee0:4f,31b,303 1ee1:6f,31b,303
    1ee2:4f,31b,323 1ee3:6f,31b,323 1ee4:55,323 1ee5:75,323 1ee6:55,309 1ee7:75,309 1ee8:55,31b,301
    1ee9:75,31b,301 1eea:55,31b,300 1eeb:75,31b,300 1eec:55,31b,309 1eed:75,31b,309 1eee:55,31b,303
    1eef:75,31b,303 1ef0:55,31b,323 1ef1:75,31b,323 1ef2:59,300 1ef3:79,300 1ef4:59,323 1ef5:79,323 1ef6:59,309
    1ef7:79,309 1ef8:59,303 1ef9:79,303 1f00:3b1,313 1f01:3b1,314 1f02:3b1,313,300 1f03:3b1,314,300
    1f04:3b1,313,301 1f05:3b1,314,301 1f06:3b1,313,342 1f07:3b1,314,342 1f08:391,313 1f09:391,314
    1f0a:391,313,300 1f0b:391,314,300 1f0c:391,313,301 1f0d:391,314,301 1f0e:391,313,342 1f0f:391,314,342
    1f10:3b5,313 1f11:3b5,314 1f12:3b5,313,300 1f13:3b5,314,300 1f14:3b5,313,301 1f15:3b5,314,301 1f18:395,313
    1f19:395,314 1f1a:395,313,300 1f1b:395,314,300 1f1c:395,313,301 1f1d:395,314,301 1f20:3b7,313 1f21:3b7,314
    1f22:3b7,313,300 1f23:3b7,314,300 1f24:3b7,313,301 1f25:3b7,314,301 1f26:3b7,313,342 1f27:3b7,314,342
    1f28:397,313 1f29:397,314 1f2a:397,313,300 1f2b:397,314,300 1f2c:397,313,301 1f2d:397,314,301
    1f2e:397,313,342 1f2f:397,314,342 1f30:3b9,313 1f31:3b9,314 1f32:3b9,313,300 1f33:3b9,314,300
    1f34:3b9,313,301 1f35:3b9,314,301 1f36:3b9,313,342 1f37:3b9,314,342 1f38:399,313 1f39:399,314
    1f3a:399,313,300 1f3b:399,314,300 1f3c:399,313,301 1f3d:399,314,301 1f3e:399,313,342 1f3f:399,314,342
    1f40:3bf,313 1f41:3bf,314 1f42:3bf,313,300 1f43:3bf,314,300 1f44:3bf,313,301 1f45:3bf,314,301 1f48:39f,313
    1f49:39f,314 1f4a:39f,313,300 1f4b:39f,314,300 1f4c:39f,313,301 1f4d:39f,314,301 1f50:3c5,313 1f51:3c5,314
    1f52:3c5,313,300 1f53:3c5,314,300 1f54:3c5,313,301 1f55:3c5,314,301 1f56:3c5,313,342 1f57:3c5,314,342
    1f59:3a5,314 1f5b:3a5,314,300 1f5d:3a5,314,301 1f5f:3a5,314,342 1f60:3c9,313 1f61:3c9,314 1f62:3c9,313,300
    1f63:3c9,314,300 1f64:3c9,313,301 1f65:3c9,314,301 1f66:3c9,313,342 1f67:3c9,314,342 1f68:3a9,313
    1f69:3a9,314 1f6a:3a9,313,300 1f6b:3a9,314,300 1f6c:3a9,313,301 1f6d:3a9,314,301 1f6e:3a9,313,342
    1f6f:3a9,314,342 1f70:3b1,300 1f71:3b1,301 1f72:3b5,300 1f73:3b5,301 1f74:3b7,300 1f75:3b7,301 1f76:3b9,300
    1f77:3b9,301 1f78:3bf,300 1f79:3bf,301 1f7a:3c5,300 1f7b:3c5,301 1f7c:3c9,300 1f7d:3c9,301 1f80:3b1,313,345
    1f81:3b1,314,345 1f82:3b1,313,300,345 1f83:3b1,314,300,345 1f84:3b1,313,301,345 1f85:3b1,314,301,345
    1f86:3b1,313,342,345 1f87:3b1,314,342,345 1f88:391,313,345 1f89:391,314,345 1f8a:391,313,300,345
    1f8b:391,314,300,345 1f8c:391,313,301,345 1f8d:391,314,301,345 1f8e:391,313,342,345 1f8f:391,314,342,345
    1f90:3b7,313,345 1f91:3b7,314,345 1f92:3b7,313,300,345 1f93:3b7,314,300,345 1f94:3b7,313,301,345
    1f95:3b7,314,301,345 1f96:3b7,313,342,345 1f97:3b7,314,342,345 1f98:397,313,345 1f99:397,314,345
    1f9a:397,313,300,345 1f9b:397,314,300,345 1f9c:397,313,301,345 1f9d:397,314,301,345 1f9e:397,313,342,345
    1f9f:397,314,342,345 1fa0:3c9,313,345 1fa1:3c9,314,345 1fa2:3c9,313,300,345 1fa3:3c9,314,300,345
    1fa4:3c9,313,301,345 1fa5:3c9,314,301,345 1fa6:3c9,313,342,345 1fa7:3c9,314,342,345 1fa8:3a9,313,345
    1fa9:3a9,314,345 1faa:3a9,313,300,345 1fab:3a9,314,300,345 1fac:3a9,313,301,345 1fad:3a9,314,301,345
    1fae:3a9,313,342,345 1faf:3a9,314,342,345 1fb0:3b1,306 1fb1:3b1,304 1fb2:3b1,300,345 1fb3:3b1,345
    1fb4:3b1,301,345 1fb6:3b1,342 1fb7:3b1,342,345 1fb8:391,306 1fb9:391,304 1fba:391,300 1fbb:391,301
    1fbc:391,345 1fc2:3b7,300,345 1fc3:3b7,345 1fc4:3b7,301,345 1fc6:3b7,342 1fc7:3b7,342,345 1fc8:395,300
    1fc9:395,301 1fca:397,300 1fcb:397,301 1fcc:397,345 1fd0:3b9,306 1fd1:3b9,304 1fd2:3b9,308,300
    1fd3:3b9,308,301 1fd6:3b9,342 1fd7:3b9,308,342 1fd8:399,306 1fd9:399,304 1fda:399,300 1fdb:399,301
    1fe0:3c5,306 1fe1:3c5,304 1fe2:3c5,308,300 1fe3:3c5,308,301 1fe4:3c1,313 1fe5:3c1,314 1fe6:3c5,342
    1fe7:3c5,308,342 1fe8:3a5,306 1fe9:3a5,304 1fea:3a5,300 1feb:3a5,301 1fec:3a1,314 1ff2:3c9,300,345
    1ff3:3c9,345 1ff4:3c9,301,345 1ff6:3c9,342 1ff7:3c9,342,345 1ff8:39f,300 1ff9:39f,301 1ffa:3a9,300
    1ffb:3a9,301 1ffc:3a9,345 212b:41,30a 2161:49,49 2162:49,49,49 2163:49,56 2165:56,49 2166:56,49,49
    2167:56,49,49,49 2168:49,58 216a:58,49 216b:58,49,49 2171:69,69 2172:69,69,69 2173:69,76 2175:76,69
    2176:76,69,69 2177:76,69,69,69 2178:69,78 217a:78,69 217b:78,69,69 304c:304b,3099 304e:304d,3099
    3050:304f,3099 3052:3051,3099 3054:3053,3099 3056:3055,3099 3058:3057,3099 305a:3059,3099 305c:305b,3099
    305e:305d,3099 3060:305f,3099 3062:3061,3099 3065:3064,3099 3067:3066,3099 3069:3068,3099 3070:306f,3099
    3071:306f,309a 3073:3072,3099 3074:3072,309a 3076:3075,3099 3077:3075,309a 3079:3078,3099 307a:3078,309a
    307c:307b,3099 307d:307b,309a 3094:3046,3099 309e:309d,3099 309f:3088,308a 30ac:30ab,3099 30ae:30ad,3099
    30b0:30af,3099 30b2:30b1,3099 30b4:30b3,3099 30b6:30b5,3099 30b8:30b7,3099 30ba:30b9,3099 30bc:30bb,3099
    30be:30bd,3099 30c0:30bf,3099 30c2:30c1,3099 30c5:30c4,3099 30c7:30c6,3099 30c9:30c8,3099 30d0:30cf,3099
    30d1:30cf,309a 30d3:30d2,3099 30d4:30d2,309a 30d6:30d5,3099 30d7:30d5,309a 30d9:30d8,3099 30da:30d8,309a
    30dc:30db,3099 30dd:30db,309a 30f4:30a6,3099 30f7:30ef,3099 30f8:30f0,3099 30f9:30f1,3099 30fa:30f2,3099
    30fe:30fd,3099 30ff:30b3,30c8 fb00:66,66 fb01:66,69 fb02:66,6c fb03:66,66,69 fb04:66,66,6c fb05:73,74
    fb06:73,74 fb13:574,576 fb14:574,565 fb15:574,56b fb16:57e,576 fb17:574,56d fb1d:5d9,5b4 fb1f:5f2,5b7
    fb2a:5e9,5c1 fb2b:5e9,5c2 fb2c:5e9,5bc,5c1 fb2d:5e9,5bc,5c2 fb2e:5d0,5b7 fb2f:5d0,5b8 fb30:5d0,5bc
    fb31:5d1,5bc fb32:5d2,5bc fb33:5d3,5bc fb34:5d4,5bc fb35:5d5,5bc fb36:5d6,5bc fb38:5d8,5bc fb39:5d9,5bc
    fb3a:5da,5bc fb3b:5db,5bc fb3c:5dc,5bc fb3e:5de,5bc fb40:5e0,5bc fb41:5e1,5bc fb43:5e3,5bc fb44:5e4,5bc
    fb46:5e6,5bc fb47:5e7,5bc fb48:5e8,5bc fb49:5e9,5bc fb4a:5ea,5bc fb4b:5d5,5b9 fb4c:5d1,5bf fb4d:5db,5bf
    fb4e:5e4,5bf fb4f:5d0,5dc fba4:6d5,654 fba5:6d5,654 fbb0:6d2,654 fbb1:6d2,654 fbdd:6c7,674 fbea:64a,654,627
    fbeb:64a,654,627 fbec:64a,654,6d5 fbed:64a,654,6d5 fbee:64a,654,648 fbef:64a,654,648 fbf0:64a,654,6c7
    fbf1:64a,654,6c7 fbf2:64a,654,6c6 fbf3:64a,654,6c6 fbf4:64a,654,6c8 fbf5:64a,654,6c8 fbf6:64a,654,6d0
    fbf7:64a,654,6d0 fbf8:64a,654,6d0 fbf9:64a,654,649 fbfa:64a,654,649 fbfb:64a,654,649 fc00:64a,654,62c
    fc01:64a,654,62d fc02:64a,654,645 fc03:64a,654,649 fc04:64a,654,64a fc05:628,62c fc06:628,62d fc07:628,62e
    fc08:628,645 fc09:628,649 fc0a:628,64a fc0b:62a,62c fc0c:62a,62d fc0d:62a,62e fc0e:62a,645 fc0f:62a,649
    fc10:62a,64a fc11:62b,62c fc12:62b,645 fc13:62b,649 fc14:62b,64a fc15:62c,62d fc16:62c,645 fc17:62d,62c
    fc18:62d,645 fc19:62e,62c fc1a:62e,62d fc1b:62e,645 fc1c:633,62c fc1d:633,62d fc1e:633,62e fc1f:633,645
    fc20:635,62d fc21:635,645 fc22:636,62c fc23:636,62d fc24:636,62e fc25:636,645 fc26:637,62d fc27:637,645
    fc28:638,645 fc29:639,62c fc2a:639,645 fc2b:63a,62c fc2c:63a,645 fc2d:641,62c fc2e:641,62d fc2f:641,62e
    fc30:641,645 fc31:641,649 fc32:641,64a fc33:642,62d fc34:642,645 fc35:642,649 fc36:642,64a fc37:643,627
    fc38:643,62c fc39:643,62d fc3a:643,62e fc3b:643,644 fc3c:643,645 fc3d:643,649 fc3e:643,64a fc3f:644,62c
    fc40:644,62d fc41:644,62e fc42:644,645 fc43:644,649 fc44:644,64a fc45:645,62c fc46:645,62d fc47:645,62e
    fc48:645,645 fc49:645,649 fc4a:645,64a fc4b:646,62c fc4c:646,62d fc4d:646,62e fc4e:646,645 fc4f:646,649
    fc50:646,64a fc51:647,62c fc52:647,645 fc53:647,649 fc54:647,64a fc55:64a,62c fc56:64a,62d fc57:64a,62e
    fc58:64a,645 fc59:64a,649 fc5a:64a,64a fc5b:630,670 fc5c:631,670 fc5d:649,670 fc64:64a,654,631
    fc65:64a,654,632 fc66:64a,654,645 fc67:64a,654,646 fc68:64a,654,649 fc69:64a,654,64a fc6a:628,631
    fc6b:628,632 fc6c:628,645 fc6d:628,646 fc6e:628,649 fc6f:628,64a fc70:62a,631 fc71:62a,632 fc72:62a,645
    fc73:62a,646 fc74:62a,649 fc75:62a,64a fc76:62b,631 fc77:62b,632 fc78:62b,645 fc79:62b,646 fc7a:62b,649
    fc7b:62b,64a fc7c:641,649 fc7d:641,64a fc7e:642,649 fc7f:642,64a fc80:643,627 fc81:643,644 fc82:643,645
    fc83:643,649 fc84:643,64a fc85:644,645 fc86:644,649 fc87:644,64a fc88:645,627 fc89:645,645 fc8a:646,631
    fc8b:646,632 fc8c:646,645 fc8d:646,646 fc8e:646,649 fc8f:646,64a fc90:649,670 fc91:64a,631 fc92:64a,632
    fc93:64a,645 fc94:64a,646 fc95:64a,649 fc96:64a,64a fc97:64a,654,62c fc98:64a,654,62d fc99:64a,654,62e
    fc9a:64a,654,645 fc9b:64a,654,647 fc9c:628,62c fc9d:628,62d fc9e:628,62e fc9f:628,645 fca0:628,647
    fca1:62a,62c fca2:62a,62d fca3:62a,62e fca4:62a,645 fca5:62a,647 fca6:62b,645 fca7:62c,62d fca8:62c,645
    fca9:62d,62c fcaa:62d,645 fcab:62e,62c fcac:62e,645 fcad:633,62c fcae:633,62d fcaf:633,62e fcb0:633,645
    fcb1:635,62d fcb2:635,62e fcb3:635,645 fcb4:636,62c fcb5:636,62d fcb6:636,62e fcb7:636,645 fcb8:637,62d
    fcb9:638,645 fcba:639,62c fcbb:639,645 fcbc:63a,62c fcbd:63a,645 fcbe:641,62c fcbf:641,62d fcc0:641,62e
    fcc1:641,645 fcc2:642,62d fcc3:642,645 fcc4:643,62c fcc5:643,62d fcc6:643,62e fcc7:643,644 fcc8:643,645
    fcc9:644,62c fcca:644,62d fccb:644,62e fccc:644,645 fccd:644,647 fcce:645,62c fccf:645,62d fcd0:645,62e
    fcd1:645,645 fcd2:646,62c fcd3:646,62d fcd4:646,62e fcd5:646,645 fcd6:646,647 fcd7:647,62c fcd8:647,645
    fcd9:647,670 fcda:64a,62c fcdb:64a,62d fcdc:64a,62e fcdd:64a,645 fcde:64a,647 fcdf:64a,654,645
    fce0:64a,654,647 fce1:628,645 fce2:628,647 fce3:62a,645 fce4:62a,647 fce5:62b,645 fce6:62b,647 fce7:633,645
    fce8:633,647 fce9:634,645 fcea:634,647 fceb:643,644 fcec:643,645 fced:644,645 fcee:646,645 fcef:646,647
    fcf0:64a,645 fcf1:64a,647 fcf2:640,64e,651 fcf3:640,64f,651 fcf4:640,650,651 fcf5:637,649 fcf6:637,64a
    fcf7:639,649 fcf8:639,64a fcf9:63a,649 fcfa:63a,64a fcfb:633,649 fcfc:633,64a fcfd:634,649 fcfe:634,64a
    fcff:62d,649 fd00:62d,64a fd01:62c,649 fd02:62c,64a fd03:62e,649 fd04:62e,64a fd05:635,649 fd06:635,64a
    fd07:636,649 fd08:636,64a fd09:634,62c fd0a:634,62d fd0b:634,62e fd0c:634,645 fd0d:634,631 fd0e:633,631
    fd0f:635,631 fd10:636,631 fd11:637,649 fd12:637,64a fd13:639,649 fd14:639,64a fd15:63a,649 fd16:63a,64a
    fd17:633,649 fd18:633,64a fd19:634,649 fd1a:634,64a fd1b:62d,649 fd1c:62d,64a fd1d:62c,649 fd1e:62c,64a
    fd1f:62e,649 fd20:62e,64a fd21:635,649 fd22:635,64a fd23:636,649 fd24:636,64a fd25:634,62c fd26:634,62d
    fd27:634,62e fd28:634,645 fd29:634,631 fd2a:633,631 fd2b:635,631 fd2c:636,631 fd2d:634,62c fd2e:634,62d
    fd2f:634,62e fd30:634,645 fd31:633,647 fd32:634,647 fd33:637,645 fd34:633,62c fd35:633,62d fd36:633,62e
    fd37:634,62c fd38:634,62d fd39:634,62e fd3a:637,645 fd3b:638,645 fd3c:627,64b fd3d:627,64b fd50:62a,62c,645
    fd51:62a,62d,62c fd52:62a,62d,62c fd53:62a,62d,645 fd54:62a,62e,645 fd55:62a,645,62c fd56:62a,645,62d
    fd57:62a,645,62e fd58:62c,645,62d fd59:62c,645,62d fd5a:62d,645,64a fd5b:62d,645,649 fd5c:633,62d,62c
    fd5d:633,62c,62d fd5e:633,62c,649 fd5f:633,645,62d fd60:633,645,62d fd61:633,645,62c fd62:633,645,645
    fd63:633,645,645 fd64:635,62d,62d fd65:635,62d,62d fd66:635,645,645 fd67:634,62d,645 fd68:634,62d,645
    fd69:634,62c,64a fd6a:634,645,62e fd6b:634,645,62e fd6c:634,645,645 fd6d:634,645,645 fd6e:636,62d,649
    fd6f:636,62e,645 fd70:636,62e,645 fd71:637,645,62d fd72:637,645,62d fd73:637,645,645 fd74:637,645,64a
    fd75:639,62c,645 fd76:639,645,645 fd77:639,645,645 fd78:639,645,649 fd79:63a,645,645 fd7a:63a,645,64a
    fd7b:63a,645,649 fd7c:641,62e,645 fd7d:641,62e,645 fd7e:642,645,62d fd7f:642,645,645 fd80:644,62d,645
    fd81:644,62d,64a fd82:644,62d,649 fd83:644,62c,62c fd84:644,62c,62c fd85:644,62e,645 fd86:644,62e,645
    fd87:644,645,62d fd88:644,645,62d fd89:645,62d,62c fd8a:645,62d,645 fd8b:645,62d,64a fd8c:645,62c,62d
    fd8d:645,62c,645 fd8e:645,62e,62c fd8f:645,62e,645 fd92:645,62c,62e fd93:647,645,62c fd94:647,645,645
    fd95:646,62d,645 fd96:646,62d,649 fd97:646,62c,645 fd98:646,62c,645 fd99:646,62c,649 fd9a:646,645,64a
    fd9b:646,645,649 fd9c:64a,645,645 fd9d:64a,645,645 fd9e:628,62e,64a fd9f:62a,62c,64a fda0:62a,62c,649
    fda1:62a,62e,64a fda2:62a,62e,649 fda3:62a,645,64a fda4:62a,645,649 fda5:62c,645,64a fda6:62c,62d,649
    fda7:62c,645,649 fda8:633,62e,649 fda9:635,62d,64a fdaa:634,62d,64a fdab:636,62d,64a fdac:644,62c,64a
    fdad:644,645,64a fdae:64a,62d,64a fdaf:64a,62c,64a fdb0:64a,645,64a fdb1:645,645,64a fdb2:642,645,64a
    fdb3:646,62d,64a fdb4:642,645,62d fdb5:644,62d,645 fdb6:639,645,64a fdb7:643,645,64a fdb8:646,62c,62d
    fdb9:645,62e,64a fdba:644,62c,645 fdbb:643,645,645 fdbc:644,62c,645 fdbd:646,62c,62d fdbe:62c,62d,64a
    fdbf:62d,62c,64a fdc0:645,62c,64a fdc1:641,645,64a fdc2:628,62d,64a fdc3:643,645,645 fdc4:639,62c,645
    fdc5:635,645,645 fdc6:633,62e,64a fdc7:646,62c,64a fdf0:635,644,6d2 fdf1:642,644,6d2 fdf2:627,644,644,647
    fdf3:627,643,628,631 fdf4:645,62d,645,62f fdf5:635,644,639,645 fdf6:631,633,648,644 fdf7:639,644,64a,647
    fdf8:648,633,644,645 fdf9:635,644,649 fe71:640,64b fe77:640,64e fe79:640,64f fe7b:640,650 fe7d:640,651
    fe7f:640,652 fe81:627,653 fe82:627,653 fe83:627,654 fe84:627,654 fe85:648,654 fe86:648,654 fe87:627,655
    fe88:627,655 fe89:64a,654 fe8a:64a,654 fe8b:64a,654 fe8c:64a,654 fef5:644,627,653 fef6:644,627,653
    fef7:644,627,654 fef8:644,627,654 fef9:644,627,655 fefa:644,627,655 fefb:644,627 fefc:644,627
    1109a:11099,110ba 1109c:1109b,110ba 110ab:110a5,110ba 1112e:11131,11127 1112f:11132,11127 1134b:11347,1133e
    1134c:11347,11357 114bb:114b9,114ba 114bc:114b9,114b0 114be:114b9,114bd 115ba:115b8,115af 115bb:115b9,115af
    11938:11935,11930"

/-- Combining classes other than 0, by runs. -/
def combiningClasses : Mapping := .ofText
  "300-314:230 315:232 316-319:220 31a:232 31b:216 31c-320:220 321-322:202 323-326:220 327-328:202 329-333:220
    334-338:1 339-33c:220 33d-344:230 345:240 346:230 347-349:220 34a-34c:230 34d-34e:220 350-352:230
    353-356:220 357:230 358:232 359-35a:220 35b:230 35c:233 35d-35e:234 35f:233 360-361:234 362:233 363-36f:230
    483-487:230 591:220 592-595:230 596:220 597-599:230 59a:222 59b:220 59c-5a1:230 5a2-5a7:220 5a8-5a9:230
    5aa:220 5ab-5ac:230 5ad:222 5ae:228 5af:230 5b0:10 5b1:11 5b2:12 5b3:13 5b4:14 5b5:15 5b6:16 5b7:17 5b8:18
    5b9-5ba:19 5bb:20 5bc:21 5bd:22 5bf:23 5c1:24 5c2:25 5c4:230 5c5:220 5c7:18 610-617:230 618:30 619:31
    61a:32 64b:27 64c:28 64d:29 64e:30 64f:31 650:32 651:33 652:34 653-654:230 655-656:220 657-65b:230 65c:220
    65d-65e:230 65f:220 670:35 6d6-6dc:230 6df-6e2:230 6e3:220 6e4:230 6e7-6e8:230 6ea:220 6eb-6ec:230 6ed:220
    711:36 730:230 731:220 732-733:230 734:220 735-736:230 737-739:220 73a:230 73b-73c:220 73d:230 73e:220
    73f-741:230 742:220 743:230 744:220 745:230 746:220 747:230 748:220 749-74a:230 7eb-7f1:230 7f2:220 7f3:230
    7fd:220 816-819:230 81b-823:230 825-827:230 829-82d:230 859-85b:220 898:230 899-89b:220 89c-89f:230
    8ca-8ce:230 8cf-8d3:220 8d4-8e1:230 8e3:220 8e4-8e5:230 8e6:220 8e7-8e8:230 8e9:220 8ea-8ec:230 8ed-8ef:220
    8f0:27 8f1:28 8f2:29 8f3-8f5:230 8f6:220 8f7-8f8:230 8f9-8fa:220 8fb-8ff:230 93c:7 94d:9 951:230 952:220
    953-954:230 9bc:7 9cd:9 9fe:230 a3c:7 a4d:9 abc:7 acd:9 b3c:7 b4d:9 bcd:9 c3c:7 c4d:9 c55:84 c56:91 cbc:7
    ccd:9 d3b-d3c:9 d4d:9 dca:9 e38-e39:103 e3a:9 e48-e4b:107 eb8-eb9:118 eba:9 ec8-ecb:122 f18-f19:220 f35:220
    f37:220 f39:216 f71:129 f72:130 f74:132 f7a-f7d:130 f80:130 f82-f83:230 f84:9 f86-f87:230 fc6:220 1037:7
    1039-103a:9 108d:220 135d-135f:230 1714-1715:9 1734:9 17d2:9 17dd:230 18a9:228 1939:222 193a:230 193b:220
    1a17:230 1a18:220 1a60:9 1a75-1a7c:230 1a7f:220 1ab0-1ab4:230 1ab5-1aba:220 1abb-1abc:230 1abd:220
    1abf-1ac0:220 1ac1-1ac2:230 1ac3-1ac4:220 1ac5-1ac9:230 1aca:220 1acb-1ace:230 1b34:7 1b44:9 1b6b:230
    1b6c:220 1b6d-1b73:230 1baa-1bab:9 1be6:7 1bf2-1bf3:9 1c37:7 1cd0-1cd2:230 1cd4:1 1cd5-1cd9:220
    1cda-1cdb:230 1cdc-1cdf:220 1ce0:230 1ce2-1ce8:1 1ced:220 1cf4:230 1cf8-1cf9:230 1dc0-1dc1:230 1dc2:220
    1dc3-1dc9:230 1dca:220 1dcb-1dcc:230 1dcd:234 1dce:214 1dcf:220 1dd0:202 1dd1-1df5:230 1df6:232
    1df7-1df8:228 1df9:220 1dfa:218 1dfb:230 1dfc:233 1dfd:220 1dfe:230 1dff:220 20d0-20d1:230 20d2-20d3:1
    20d4-20d7:230 20d8-20da:1 20db-20dc:230 20e1:230 20e5-20e6:1 20e7:230 20e8:220 20e9:230 20ea-20eb:1
    20ec-20ef:220 20f0:230 2cef-2cf1:230 2d7f:9 2de0-2dff:230 302a:218 302b:228 302c:232 302d:222 302e-302f:224
    3099-309a:8 a66f:230 a674-a67d:230 a69e-a69f:230 a6f0-a6f1:230 a806:9 a82c:9 a8c4:9 a8e0-a8f1:230
    a92b-a92d:220 a953:9 a9b3:7 a9c0:9 aab0:230 aab2-aab3:230 aab4:220 aab7-aab8:230 aabe-aabf:230 aac1:230
    aaf6:9 abed:9 fb1e:26 fe20-fe26:230 fe27-fe2d:220 fe2e-fe2f:230 101fd:220 102e0:220 10376-1037a:230
    10a0d:220 10a0f:230 10a38:230 10a39:1 10a3a:220 10a3f:9 10ae5:230 10ae6:220 10d24-10d27:230 10eab-10eac:230
    10f46-10f47:220 10f48-10f4a:230 10f4b:220 10f4c:230 10f4d-10f50:220 10f82:230 10f83:220 10f84:230 10f85:220
    11046:9 11070:9 1107f:9 110b9:9 110ba:7 11100-11102:230 11133-11134:9 11173:7 111c0:9 111ca:7 11235:9
    11236:7 112e9:7 112ea:9 1133b-1133c:7 1134d:9 11366-1136c:230 11370-11374:230 11442:9 11446:7 1145e:230
    114c2:9 114c3:7 115bf:9 115c0:7 1163f:9 116b6:9 116b7:7 1172b:9 11839:9 1183a:7 1193d-1193e:9 11943:7
    119e0:9 11a34:9 11a47:9 11a99:9 11c3f:9 11d42:7 11d44-11d45:9 11d97:9 16af0-16af4:1 16b30-16b36:230
    16ff0-16ff1:6 1bc9e:1 1d165-1d166:216 1d167-1d169:1 1d16d:226 1d16e-1d172:216 1d17b-1d182:220
    1d185-1d189:230 1d18a-1d18b:220 1d1aa-1d1ad:230 1d242-1d244:230 1e000-1e006:230 1e008-1e018:230
    1e01b-1e021:230 1e023-1e024:230 1e026-1e02a:230 1e130-1e136:230 1e2ae:230 1e2ec-1e2ef:230 1e8d0-1e8d6:220
    1e944-1e949:230 1e94a:7"
  ""

/-- The second characters, with the composites, that a first character composes with. -/
def compositionTable : Array (Nat × List (Nat × Nat)) :=
  let words := tableWords compositionText
  (words.map fun w => match w.splitOn ":" with
    | [first, pairs] =>
      (hexValue first, (pairs.splitOn ",").map fun p => match p.splitOn "=" with
        | [second, composite] => (hexValue second, hexValue composite)
        | _ => (0, 0))
    | _ => (0, [])).toArray
where
  compositionText : String :=
    "3c:338=226e 3d:338=2260 3e:338=226f
      41:300=c0,301=c1,302=c2,303=c3,304=100,306=102,307=226,308=c4,309=1ea2,30a=c5,30c=1cd,30f=200,311=202,323=1ea0,325=1e00,328=104
      42:307=1e02,323=1e04,331=1e06 43:301=106,302=108,307=10a,30c=10c,327=c7
      44:307=1e0a,30c=10e,323=1e0c,327=1e10,32d=1e12,331=1e0e
      45:300=c8,301=c9,302=ca,303=1ebc,304=112,306=114,307=116,308=cb,309=1eba,30c=11a,30f=204,311=206,323=1eb8,327=228,328=118,32d=1e18,330=1e1a
      46:307=1e1e 47:301=1f4,302=11c,304=1e20,306=11e,307=120,30c=1e6,327=122
      48:302=124,307=1e22,308=1e26,30c=21e,323=1e24,327=1e28,32e=1e2a
      49:300=cc,301=cd,302=ce,303=128,304=12a,306=12c,307=130,308=cf,309=1ec8,30c=1cf,30f=208,311=20a,323=1eca,328=12e,330=1e2c
      4a:302=134 4b:301=1e30,30c=1e8,323=1e32,327=136,331=1e34
      4c:301=139,30c=13d,323=1e36,327=13b,32d=1e3c,331=1e3a 4d:301=1e3e,307=1e40,323=1e42
      4e:300=1f8,301=143,303=d1,307=1e44,30c=147,323=1e46,327=145,32d=1e4a,331=1e48
      4f:300=d2,301=d3,302=d4,303=d5,304=14c,306=14e,307=22e,308=d6,309=1ece,30b=150,30c=1d1,30f=20c,311=20e,31b=1a0,323=1ecc,328=1ea
      50:301=1e54,307=1e56 52:301=154,307=1e58,30c=158,30f=210,311=212,323=1e5a,327=156,331=1e5e
      53:301=15a,302=15c,307=1e60,30c=160,323=1e62,326=218,327=15e
      54:307=1e6a,30c=164,323=1e6c,326=21a,327=162,32d=1e70,331=1e6e
      55:300=d9,301=da,302=db,303=168,304=16a,306=16c,308=dc,309=1ee6,30a=16e,30b=170,30c=1d3,30f=214,311=216,31b=1af,323=1ee4,324=1e72,328=172,32d=1e76,330=1e74
      56:303=1e7c,323=1e7e 57:300=1e80,301=1e82,302=174,307=1e86,308=1e84,323=1e88 58:307=1e8a,308=1e8c
      59:300=1ef2,301=dd,302=176,303=1ef8,304=232,307=1e8e,308=178,309=1ef6,323=1ef4
      5a:301=179,302=1e90,307=17b,30c=17d,323=1e92,331=1e94
      61:300=e0,301=e1,302=e2,303=e3,304=101,306=103,307=227,308=e4,309=1ea3,30a=e5,30c=1ce,30f=201,311=203,323=1ea1,325=1e01,328=105
      62:307=1e03,323=1e05,331=1e07 63:301=107,302=109,307=10b,30c=10d,327=e7
      64:307=1e0b,30c=10f,323=1e0d,327=1e11,32d=1e13,331=1e0f
      65:300=e8,301=e9,302=ea,303=1ebd,304=113,306=115,307=117,308=eb,309=1ebb,30c=11b,30f=205,311=207,323=1eb9,327=229,328=119,32d=1e19,330=1e1b
      66:307=1e1f 67:301=1f5,302=11d,304=1e21,306=11f,307=121,30c=1e7,327=123
      68:302=125,307=1e23,308=1e27,30c=21f,323=1e25,327=1e29,32e=1e2b,331=1e96
      69:300=ec,301=ed,302=ee,303=129,304=12b,306=12d,308=ef,309=1ec9,30c=1d0,30f=209,311=20b,323=1ecb,328=12f,330=1e2d
      6a:302=135,30c=1f0 6b:301=1e31,30c=1e9,323=1e33,327=137,331=1e35
      6c:301=13a,30c=13e,323=1e37,327=13c,32d=1e3d,331=1e3b 6d:301=1e3f,307=1e41,323=1e43
      6e:300=1f9,301=144,303=f1,307=1e45,30c=148,323=1e47,327=146,32d=1e4b,331=1e49
      6f:300=f2,301=f3,302=f4,303=f5,304=14d,306=14f,307=22f,308=f6,309=1ecf,30b=151,30c=1d2,30f=20d,311=20f,31b=1a1,323=1ecd,328=1eb
      70:301=1e55,307=1e57 72:301=155,307=1e59,30c=159,30f=211,311=213,323=1e5b,327=157,331=1e5f
      73:301=15b,302=15d,307=1e61,30c=161,323=1e63,326=219,327=15f
      74:307=1e6b,308=1e97,30c=165,323=1e6d,326=21b,327=163,32d=1e71,331=1e6f
      75:300=f9,301=fa,302=fb,303=169,304=16b,306=16d,308=fc,309=1ee7,30a=16f,30b=171,30c=1d4,30f=215,311=217,31b=1b0,323=1ee5,324=1e73,328=173,32d=1e77,330=1e75
      76:303=1e7d,323=1e7f 77:300=1e81,301=1e83,302=175,307=1e87,308=1e85,30a=1e98,323=1e89 78:307=1e8b,308=1e8d
      79:300=1ef3,301=fd,302=177,303=1ef9,304=233,307=1e8f,308=ff,309=1ef7,30a=1e99,323=1ef5
      7a:301=17a,302=1e91,307=17c,30c=17e,323=1e93,331=1e95 a8:300=1fed,301=385,342=1fc1
      c2:300=1ea6,301=1ea4,303=1eaa,309=1ea8 c4:304=1de c5:301=1fa c6:301=1fc,304=1e2 c7:301=1e08
      ca:300=1ec0,301=1ebe,303=1ec4,309=1ec2 cf:301=1e2e d4:300=1ed2,301=1ed0,303=1ed6,309=1ed4
      d5:301=1e4c,304=22c,308=1e4e d6:304=22a d8:301=1fe dc:300=1db,301=1d7,304=1d5,30c=1d9
      e2:300=1ea7,301=1ea5,303=1eab,309=1ea9 e4:304=1df e5:301=1fb e6:301=1fd,304=1e3 e7:301=1e09
      ea:300=1ec1,301=1ebf,303=1ec5,309=1ec3 ef:301=1e2f f4:300=1ed3,301=1ed1,303=1ed7,309=1ed5
      f5:301=1e4d,304=22d,308=1e4f f6:304=22b f8:301=1ff fc:300=1dc,301=1d8,304=1d6,30c=1da
      102:300=1eb0,301=1eae,303=1eb4,309=1eb2 103:300=1eb1,301=1eaf,303=1eb5,309=1eb3 112:300=1e14,301=1e16
      113:300=1e15,301=1e17 14c:300=1e50,301=1e52 14d:300=1e51,301=1e53 15a:307=1e64 15b:307=1e65 160:307=1e66
      161:307=1e67 168:301=1e78 169:301=1e79 16a:308=1e7a 16b:308=1e7b 17f:307=1e9b
      1a0:300=1edc,301=1eda,303=1ee0,309=1ede,323=1ee2 1a1:300=1edd,301=1edb,303=1ee1,309=1edf,323=1ee3
      1af:300=1eea,301=1ee8,303=1eee,309=1eec,323=1ef0 1b0:300=1eeb,301=1ee9,303=1eef,309=1eed,323=1ef1
      1b7:30c=1ee 1ea:304=1ec 1eb:304=1ed 226:304=1e0 227:304=1e1 228:306=1e1c 229:306=1e1d 22e:304=230
      22f:304=231 292:30c=1ef 391:300=1fba,301=386,304=1fb9,306=1fb8,313=1f08,314=1f09,345=1fbc
      395:300=1fc8,301=388,313=1f18,314=1f19 397:300=1fca,301=389,313=1f28,314=1f29,345=1fcc
      399:300=1fda,301=38a,304=1fd9,306=1fd8,308=3aa,313=1f38,314=1f39 39f:300=1ff8,301=38c,313=1f48,314=1f49
      3a1:314=1fec 3a5:300=1fea,301=38e,304=1fe9,306=1fe8,308=3ab,314=1f59
      3a9:300=1ffa,301=38f,313=1f68,314=1f69,345=1ffc 3ac:345=1fb4 3ae:345=1fc4
      3b1:300=1f70,301=3ac,304=1fb1,306=1fb0,313=1f00,314=1f01,342=1fb6,345=1fb3
      3b5:300=1f72,301=3ad,313=1f10,314=1f11 3b7:300=1f74,301=3ae,313=1f20,314=1f21,342=1fc6,345=1fc3
      3b9:300=1f76,301=3af,304=1fd1,306=1fd0,308=3ca,313=1f30,314=1f31,342=1fd6
      3bf:300=1f78,301=3cc,313=1f40,314=1f41 3c1:313=1fe4,314=1fe5
      3c5:300=1f7a,301=3cd,304=1fe1,306=1fe0,308=3cb,313=1f50,314=1f51,342=1fe6
      3c9:300=1f7c,301=3ce,313=1f60,314=1f61,342=1ff6,345=1ff3 3ca:300=1fd2,301=390,342=1fd7
      3cb:300=1fe2,301=3b0,342=1fe7 3ce:345=1ff4 3d2:301=3d3,308=3d4 406:308=407 410:306=4d0,308=4d2 413:301=403
      415:300=400,306=4d6,308=401 416:306=4c1,308=4dc 417:308=4de 418:300=40d,304=4e2,306=419,308=4e4 41a:301=40c
      41e:308=4e6 423:304=4ee,306=40e,308=4f0,30b=4f2 427:308=4f4 42b:308=4f8 42d:308=4ec 430:306=4d1,308=4d3
      433:301=453 435:300=450,306=4d7,308=451 436:306=4c2,308=4dd 437:308=4df 438:300=45d,304=4e3,306=439,308=4e5
      43a:301=45c 43e:308=4e7 443:304=4ef,306=45e,308=4f1,30b=4f3 447:308=4f5 44b:308=4f9 44d:308=4ed 456:308=457
      474:30f=476 475:30f=477 4d8:308=4da 4d9:308=4db 4e8:308=4ea 4e9:308=4eb 627:653=622,654=623,655=625
      648:654=624 64a:654=626 6c1:654=6c2 6d2:654=6d3 6d5:654=6c0 928:93c=929 930:93c=931 933:93c=934
      9c7:9be=9cb,9d7=9cc b47:b3e=b4b,b56=b48,b57=b4c b92:bd7=b94 bc6:bbe=bca,bd7=bcc bc7:bbe=bcb c46:c56=c48
      cbf:cd5=cc0 cc6:cc2=cca,cd5=cc7,cd6=cc8 cca:cd5=ccb d46:d3e=d4a,d57=d4c d47:d3e=d4b
      dd9:dca=dda,dcf=ddc,ddf=dde ddc:dca=ddd 1025:102e=1026 1b05:1b35=1b06 1b07:1b35=1b08 1b09:1b35=1b0a
      1b0b:1b35=1b0c 1b0d:1b35=1b0e 1b11:1b35=1b12 1b3a:1b35=1b3b 1b3c:1b35=1b3d 1b3e:1b35=1b40 1b3f:1b35=1b41
      1b42:1b35=1b43 1e36:304=1e38 1e37:304=1e39 1e5a:304=1e5c 1e5b:304=1e5d 1e62:307=1e68 1e63:307=1e69
      1ea0:302=1eac,306=1eb6 1ea1:302=1ead,306=1eb7 1eb8:302=1ec6 1eb9:302=1ec7 1ecc:302=1ed8 1ecd:302=1ed9
      1f00:300=1f02,301=1f04,342=1f06,345=1f80 1f01:300=1f03,301=1f05,342=1f07,345=1f81 1f02:345=1f82
      1f03:345=1f83 1f04:345=1f84 1f05:345=1f85 1f06:345=1f86 1f07:345=1f87
      1f08:300=1f0a,301=1f0c,342=1f0e,345=1f88 1f09:300=1f0b,301=1f0d,342=1f0f,345=1f89 1f0a:345=1f8a
      1f0b:345=1f8b 1f0c:345=1f8c 1f0d:345=1f8d 1f0e:345=1f8e 1f0f:345=1f8f 1f10:300=1f12,301=1f14
      1f11:300=1f13,301=1f15 1f18:300=1f1a,301=1f1c 1f19:300=1f1b,301=1f1d
      1f20:300=1f22,301=1f24,342=1f26,345=1f90 1f21:300=1f23,301=1f25,342=1f27,345=1f91 1f22:345=1f92
      1f23:345=1f93 1f24:345=1f94 1f25:345=1f95 1f26:345=1f96 1f27:345=1f97
      1f28:300=1f2a,301=1f2c,342=1f2e,345=1f98 1f29:300=1f2b,301=1f2d,342=1f2f,345=1f99 1f2a:345=1f9a
      1f2b:345=1f9b 1f2c:345=1f9c 1f2d:345=1f9d 1f2e:345=1f9e 1f2f:345=1f9f 1f30:300=1f32,301=1f34,342=1f36
      1f31:300=1f33,301=1f35,342=1f37 1f38:300=1f3a,301=1f3c,342=1f3e 1f39:300=1f3b,301=1f3d,342=1f3f
      1f40:300=1f42,301=1f44 1f41:300=1f43,301=1f45 1f48:300=1f4a,301=1f4c 1f49:300=1f4b,301=1f4d
      1f50:300=1f52,301=1f54,342=1f56 1f51:300=1f53,301=1f55,342=1f57 1f59:300=1f5b,301=1f5d,342=1f5f
      1f60:300=1f62,301=1f64,342=1f66,345=1fa0 1f61:300=1f63,301=1f65,342=1f67,345=1fa1 1f62:345=1fa2
      1f63:345=1fa3 1f64:345=1fa4 1f65:345=1fa5 1f66:345=1fa6 1f67:345=1fa7
      1f68:300=1f6a,301=1f6c,342=1f6e,345=1fa8 1f69:300=1f6b,301=1f6d,342=1f6f,345=1fa9 1f6a:345=1faa
      1f6b:345=1fab 1f6c:345=1fac 1f6d:345=1fad 1f6e:345=1fae 1f6f:345=1faf 1f70:345=1fb2 1f74:345=1fc2
      1f7c:345=1ff2 1fb6:345=1fb7 1fbf:300=1fcd,301=1fce,342=1fcf 1fc6:345=1fc7 1ff6:345=1ff7
      1ffe:300=1fdd,301=1fde,342=1fdf 2190:338=219a 2192:338=219b 2194:338=21ae 21d0:338=21cd 21d2:338=21cf
      21d4:338=21ce 2203:338=2204 2208:338=2209 220b:338=220c 2223:338=2224 2225:338=2226 223c:338=2241
      2243:338=2244 2245:338=2247 2248:338=2249 224d:338=226d 2261:338=2262 2264:338=2270 2265:338=2271
      2272:338=2274 2273:338=2275 2276:338=2278 2277:338=2279 227a:338=2280 227b:338=2281 227c:338=22e0
      227d:338=22e1 2282:338=2284 2283:338=2285 2286:338=2288 2287:338=2289 2291:338=22e2 2292:338=22e3
      22a2:338=22ac 22a8:338=22ad 22a9:338=22ae 22ab:338=22af 22b2:338=22ea 22b3:338=22eb 22b4:338=22ec
      22b5:338=22ed 3046:3099=3094 304b:3099=304c 304d:3099=304e 304f:3099=3050 3051:3099=3052 3053:3099=3054
      3055:3099=3056 3057:3099=3058 3059:3099=305a 305b:3099=305c 305d:3099=305e 305f:3099=3060 3061:3099=3062
      3064:3099=3065 3066:3099=3067 3068:3099=3069 306f:3099=3070,309a=3071 3072:3099=3073,309a=3074
      3075:3099=3076,309a=3077 3078:3099=3079,309a=307a 307b:3099=307c,309a=307d 309d:3099=309e 30a6:3099=30f4
      30ab:3099=30ac 30ad:3099=30ae 30af:3099=30b0 30b1:3099=30b2 30b3:3099=30b4 30b5:3099=30b6 30b7:3099=30b8
      30b9:3099=30ba 30bb:3099=30bc 30bd:3099=30be 30bf:3099=30c0 30c1:3099=30c2 30c4:3099=30c5 30c6:3099=30c7
      30c8:3099=30c9 30cf:3099=30d0,309a=30d1 30d2:3099=30d3,309a=30d4 30d5:3099=30d6,309a=30d7
      30d8:3099=30d9,309a=30da 30db:3099=30dc,309a=30dd 30ef:3099=30f7 30f0:3099=30f8 30f1:3099=30f9
      30f2:3099=30fa 30fd:3099=30fe 11099:110ba=1109a 1109b:110ba=1109c 110a5:110ba=110ab 11131:11127=1112e
      11132:11127=1112f 11347:1133e=1134b,11357=1134c 114b9:114b0=114bc,114ba=114bb,114bd=114be 115b8:115af=115ba
      115b9:115af=115bb 11935:11930=11938"

/-- The order in which combining marks stand; 0 for a character that is none. -/
def combiningClass (c : Char) : Nat :=
  let m := combiningClasses
  let place := CharSet.lastAtMost (fun i => (m.runs[i]?.map Run.low).getD 0) c.toNat 32 0 m.runs.size
  match m.runs[place]?, m.distances[place]? with
  | some r, some k => if r.contains c.toNat then k.toNat else 0
  | _, _ => 0

/-- The full decomposition of a character. -/
def decompose (c : Char) : List Char :=
  let n := c.toNat
  if 0xac00 ≤ n && n ≤ 0xd7a3 then
    let i := n - 0xac00
    let lead := [Char.ofNat (0x1100 + i / 588), Char.ofNat (0x1161 + i % 588 / 28)]
    if i % 28 == 0 then lead else lead ++ [Char.ofNat (0x11a7 + i % 28)]
  else (decompositions.find? c).getD [c]

/-- Puts a mark before the marks of a higher class that end the text `before` (nearest first). -/
def insertMark (c : Char) : List Char → List Char
  | [] => [c]
  | d :: before =>
    if combiningClass c ≠ 0 && combiningClass c < combiningClass d then d :: insertMark c before else c :: d :: before

/-- Combining marks in canonical order. -/
def orderMarks (cs : List Char) : List Char := (cs.foldl (fun before c => insertMark c before) []).reverse

/-- The character that two characters compose to. -/
def compose? (a b : Char) : Option Char :=
  let m := a.toNat
  let n := b.toNat
  if 0x1100 ≤ m && m < 0x1113 && 0x1161 ≤ n && n < 0x1176 then
    some (Char.ofNat (0xac00 + ((m - 0x1100) * 21 + (n - 0x1161)) * 28))
  else if 0xac00 ≤ m && m ≤ 0xd7a3 && (m - 0xac00) % 28 == 0 && 0x11a7 < n && n < 0x11c3 then
    some (Char.ofNat (m + (n - 0x11a7)))
  else
    let place := CharSet.lastAtMost (fun i => (compositionTable[i]?.map Prod.fst).getD 0) m 32 0 compositionTable.size
    match compositionTable[place]? with
    | some (first, pairs) => if first == m then (pairs.find? (·.1 == n)).map fun p => Char.ofNat p.2 else none
    | none => none

/-- Composes each character with the last starter where no mark of the same or a higher class stands between. -/
def composeAll (cs : List Char) : List Char := go none [] 0 cs
where
  /-- `starter` is the last starter, `marks` (nearest first) the marks after it, `last` the class of the nearest. -/
  go (starter : Option Char) (marks : List Char) (last : Nat) : List Char → List Char
    | [] => starter.toList ++ marks.reverse
    | c :: cs =>
      let k := combiningClass c
      match starter with
      | none => if k == 0 then go (some c) [] 0 cs else c :: go none [] 0 cs
      | some s =>
        let joined := if marks.isEmpty || last < k then compose? s c else none
        match joined with
        | some composite => go (some composite) marks last cs
        | none =>
          if k == 0 then (s :: marks.reverse) ++ go (some c) [] 0 cs
          else go (some s) (c :: marks) k cs

/-- The spelling that all compatible spellings of a text share. -/
def compatible (cs : List Char) : List Char :=
  if cs.all (fun c => c.toNat < 128) then cs else composeAll (orderMarks (cs.flatMap decompose))

end NestedSite.Text
