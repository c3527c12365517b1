/-!
# Marks and their classes

Tables of the Unicode character database. A table is a text of words `<first>:<value>`, each for the
code points from the given one, in hexadecimal, up to the one before the next word.
-/

namespace Rebadge.Text.Unicode

/-- Canonical combining classes. -/
def combiningText : String := "
  0:0 300:230 315:232 316:220 31A:232 31B:216 31C:220 321:202 323:220 327:202 329:220 334:1 339:220
  33D:230 345:240 346:230 347:220 34A:230 34D:220 34F:0 350:230 353:220 357:230 358:232 359:220
  35B:230 35C:233 35D:234 35F:233 360:234 362:233 363:230 370:0 483:230 488:0 591:220 592:230
  596:220 597:230 59A:222 59B:220 59C:230 5A2:220 5A8:230 5AA:220 5AB:230 5AD:222 5AE:228 5AF:230
  5B0:10 5B1:11 5B2:12 5B3:13 5B4:14 5B5:15 5B6:16 5B7:17 5B8:18 5B9:19 5BB:20 5BC:21 5BD:22 5BE:0
  5BF:23 5C0:0 5C1:24 5C2:25 5C3:0 5C4:230 5C5:220 5C6:0 5C7:18 5C8:0 610:230 618:30 619:31 61A:32
  61B:0 64B:27 64C:28 64D:29 64E:30 64F:31 650:32 651:33 652:34 653:230 655:220 657:230 65C:220
  65D:230 65F:220 660:0 670:35 671:0 6D6:230 6DD:0 6DF:230 6E3:220 6E4:230 6E5:0 6E7:230 6E9:0
  6EA:220 6EB:230 6ED:220 6EE:0 711:36 712:0 730:230 731:220 732:230 734:220 735:230 737:220 73A:230
  73B:220 73D:230 73E:220 73F:230 742:220 743:230 744:220 745:230 746:220 747:230 748:220 749:230
  74B:0 7EB:230 7F2:220 7F3:230 7F4:0 7FD:220 7FE:0 816:230 81A:0 81B:230 824:0 825:230 828:0
  829:230 82E:0 859:220 85C:0 898:230 899:220 89C:230 8A0:0 8CA:230 8CF:220 8D4:230 8E2:0 8E3:220
  8E4:230 8E6:220 8E7:230 8E9:220 8EA:230 8ED:220 8F0:27 8F1:28 8F2:29 8F3:230 8F6:220 8F7:230
  8F9:220 8FB:230 900:0 93C:7 93D:0 94D:9 94E:0 951:230 952:220 953:230 955:0 9BC:7 9BD:0 9CD:9
  9CE:0 9FE:230 9FF:0 A3C:7 A3D:0 A4D:9 A4E:0 ABC:7 ABD:0 ACD:9 ACE:0 B3C:7 B3D:0 B4D:9 B4E:0 BCD:9
  BCE:0 C3C:7 C3D:0 C4D:9 C4E:0 C55:84 C56:91 C57:0 CBC:7 CBD:0 CCD:9 CCE:0 D3B:9 D3D:0 D4D:9 D4E:0
  DCA:9 DCB:0 E38:103 E3A:9 E3B:0 E48:107 E4C:0 EB8:118 EBA:9 EBB:0 EC8:122 ECC:0 F18:220 F1A:0
  F35:220 F36:0 F37:220 F38:0 F39:216 F3A:0 F71:129 F72:130 F73:0 F74:132 F75:0 F7A:130 F7E:0
  F80:130 F81:0 F82:230 F84:9 F85:0 F86:230 F88:0 FC6:220 FC7:0 1037:7 1038:0 1039:9 103B:0 108D:220
  108E:0 135D:230 1360:0 1714:9 1716:0 1734:9 1735:0 17D2:9 17D3:0 17DD:230 17DE:0 18A9:228 18AA:0
  1939:222 193A:230 193B:220 193C:0 1A17:230 1A18:220 1A19:0 1A60:9 1A61:0 1A75:230 1A7D:0 1A7F:220
  1A80:0 1AB0:230 1AB5:220 1ABB:230 1ABD:220 1ABE:0 1ABF:220 1AC1:230 1AC3:220 1AC5:230 1ACA:220
  1ACB:230 1ACF:0 1B34:7 1B35:0 1B44:9 1B45:0 1B6B:230 1B6C:220 1B6D:230 1B74:0 1BAA:9 1BAC:0 1BE6:7
  1BE7:0 1BF2:9 1BF4:0 1C37:7 1C38:0 1CD0:230 1CD3:0 1CD4:1 1CD5:220 1CDA:230 1CDC:220 1CE0:230
  1CE1:0 1CE2:1 1CE9:0 1CED:220 1CEE:0 1CF4:230 1CF5:0 1CF8:230 1CFA:0 1DC0:230 1DC2:220 1DC3:230
  1DCA:220 1DCB:230 1DCD:234 1DCE:214 1DCF:220 1DD0:202 1DD1:230 1DF6:232 1DF7:228 1DF9:220 1DFA:218
  1DFB:230 1DFC:233 1DFD:220 1DFE:230 1DFF:220 1E00:0 20D0:230 20D2:1 20D4:230 20D8:1 20DB:230
  20DD:0 20E1:230 20E2:0 20E5:1 20E7:230 20E8:220 20E9:230 20EA:1 20EC:220 20F0:230 20F1:0 2CEF:230
  2CF2:0 2D7F:9 2D80:0 2DE0:230 2E00:0 302A:218 302B:228 302C:232 302D:222 302E:224 3030:0 3099:8
  309B:0 A66F:230 A670:0 A674:230 A67E:0 A69E:230 A6A0:0 A6F0:230 A6F2:0 A806:9 A807:0 A82C:9 A82D:0
  A8C4:9 A8C5:0 A8E0:230 A8F2:0 A92B:220 A92E:0 A953:9 A954:0 A9B3:7 A9B4:0 A9C0:9 A9C1:0 AAB0:230
  AAB1:0 AAB2:230 AAB4:220 AAB5:0 AAB7:230 AAB9:0 AABE:230 AAC0:0 AAC1:230 AAC2:0 AAF6:9 AAF7:0
  ABED:9 ABEE:0 FB1E:26 FB1F:0 FE20:230 FE27:220 FE2E:230 FE30:0 101FD:220 101FE:0 102E0:220 102E1:0
  10376:230 1037B:0 10A0D:220 10A0E:0 10A0F:230 10A10:0 10A38:230 10A39:1 10A3A:220 10A3B:0 10A3F:9
  10A40:0 10AE5:230 10AE6:220 10AE7:0 10D24:230 10D28:0 10EAB:230 10EAD:0 10EFD:220 10F00:0
  10F46:220 10F48:230 10F4B:220 10F4C:230 10F4D:220 10F51:0 10F82:230 10F83:220 10F84:230 10F85:220
  10F86:0 11046:9 11047:0 11070:9 11071:0 1107F:9 11080:0 110B9:9 110BA:7 110BB:0 11100:230 11103:0
  11133:9 11135:0 11173:7 11174:0 111C0:9 111C1:0 111CA:7 111CB:0 11235:9 11236:7 11237:0 112E9:7
  112EA:9 112EB:0 1133B:7 1133D:0 1134D:9 1134E:0 11366:230 1136D:0 11370:230 11375:0 11442:9
  11443:0 11446:7 11447:0 1145E:230 1145F:0 114C2:9 114C3:7 114C4:0 115BF:9 115C0:7 115C1:0 1163F:9
  11640:0 116B6:9 116B7:7 116B8:0 1172B:9 1172C:0 11839:9 1183A:7 1183B:0 1193D:9 1193F:0 11943:7
  11944:0 119E0:9 119E1:0 11A34:9 11A35:0 11A47:9 11A48:0 11A99:9 11A9A:0 11C3F:9 11C40:0 11D42:7
  11D43:0 11D44:9 11D46:0 11D97:9 11D98:0 11F41:9 11F43:0 16AF0:1 16AF5:0 16B30:230 16B37:0 16FF0:6
  16FF2:0 1BC9E:1 1BC9F:0 1D165:216 1D167:1 1D16A:0 1D16D:226 1D16E:216 1D173:0 1D17B:220 1D183:0
  1D185:230 1D18A:220 1D18C:0 1D1AA:230 1D1AE:0 1D242:230 1D245:0 1E000:230 1E007:0 1E008:230
  1E019:0 1E01B:230 1E022:0 1E023:230 1E025:0 1E026:230 1E02B:0 1E08F:230 1E090:0 1E130:230 1E137:0
  1E2AE:230 1E2AF:0 1E2EC:230 1E2F0:0 1E4EC:232 1E4EE:220 1E4EF:230 1E4F0:0 1E8D0:220 1E8D7:0
  1E944:230 1E94A:7 1E94B:0"

/-- Marks have the value `M`. -/
def markText : String := "
  0:N 300:M 370:N 483:M 48A:N 591:M 5BE:N 5BF:M 5C0:N 5C1:M 5C3:N 5C4:M 5C6:N 5C7:M 5C8:N 610:M
  61B:N 64B:M 660:N 670:M 671:N 6D6:M 6DD:N 6DF:M 6E5:N 6E7:M 6E9:N 6EA:M 6EE:N 711:M 712:N 730:M
  74B:N 7A6:M 7B1:N 7EB:M 7F4:N 7FD:M 7FE:N 816:M 81A:N 81B:M 824:N 825:M 828:N 829:M 82E:N 859:M
  85C:N 898:M 8A0:N 8CA:M 8E2:N 8E3:M 904:N 93A:M 93D:N 93E:M 950:N 951:M 958:N 962:M 964:N 981:M
  984:N 9BC:M 9BD:N 9BE:M 9C5:N 9C7:M 9C9:N 9CB:M 9CE:N 9D7:M 9D8:N 9E2:M 9E4:N 9FE:M 9FF:N A01:M
  A04:N A3C:M A3D:N A3E:M A43:N A47:M A49:N A4B:M A4E:N A51:M A52:N A70:M A72:N A75:M A76:N A81:M
  A84:N ABC:M ABD:N ABE:M AC6:N AC7:M ACA:N ACB:M ACE:N AE2:M AE4:N AFA:M B00:N B01:M B04:N B3C:M
  B3D:N B3E:M B45:N B47:M B49:N B4B:M B4E:N B55:M B58:N B62:M B64:N B82:M B83:N BBE:M BC3:N BC6:M
  BC9:N BCA:M BCE:N BD7:M BD8:N C00:M C05:N C3C:M C3D:N C3E:M C45:N C46:M C49:N C4A:M C4E:N C55:M
  C57:N C62:M C64:N C81:M C84:N CBC:M CBD:N CBE:M CC5:N CC6:M CC9:N CCA:M CCE:N CD5:M CD7:N CE2:M
  CE4:N CF3:M CF4:N D00:M D04:N D3B:M D3D:N D3E:M D45:N D46:M D49:N D4A:M D4E:N D57:M D58:N D62:M
  D64:N D81:M D84:N DCA:M DCB:N DCF:M DD5:N DD6:M DD7:N DD8:M DE0:N DF2:M DF4:N E31:M E32:N E34:M
  E3B:N E47:M E4F:N EB1:M EB2:N EB4:M EBD:N EC8:M ECF:N F18:M F1A:N F35:M F36:N F37:M F38:N F39:M
  F3A:N F3E:M F40:N F71:M F85:N F86:M F88:N F8D:M F98:N F99:M FBD:N FC6:M FC7:N 102B:M 103F:N 1056:M
  105A:N 105E:M 1061:N 1062:M 1065:N 1067:M 106E:N 1071:M 1075:N 1082:M 108E:N 108F:M 1090:N 109A:M
  109E:N 135D:M 1360:N 1712:M 1716:N 1732:M 1735:N 1752:M 1754:N 1772:M 1774:N 17B4:M 17D4:N 17DD:M
  17DE:N 180B:M 180E:N 180F:M 1810:N 1885:M 1887:N 18A9:M 18AA:N 1920:M 192C:N 1930:M 193C:N 1A17:M
  1A1C:N 1A55:M 1A5F:N 1A60:M 1A7D:N 1A7F:M 1A80:N 1AB0:M 1ACF:N 1B00:M 1B05:N 1B34:M 1B45:N 1B6B:M
  1B74:N 1B80:M 1B83:N 1BA1:M 1BAE:N 1BE6:M 1BF4:N 1C24:M 1C38:N 1CD0:M 1CD3:N 1CD4:M 1CE9:N 1CED:M
  1CEE:N 1CF4:M 1CF5:N 1CF7:M 1CFA:N 1DC0:M 1E00:N 20D0:M 20F1:N 2CEF:M 2CF2:N 2D7F:M 2D80:N 2DE0:M
  2E00:N 302A:M 3030:N 3099:M 309B:N A66F:M A673:N A674:M A67E:N A69E:M A6A0:N A6F0:M A6F2:N A802:M
  A803:N A806:M A807:N A80B:M A80C:N A823:M A828:N A82C:M A82D:N A880:M A882:N A8B4:M A8C6:N A8E0:M
  A8F2:N A8FF:M A900:N A926:M A92E:N A947:M A954:N A980:M A984:N A9B3:M A9C1:N A9E5:M A9E6:N AA29:M
  AA37:N AA43:M AA44:N AA4C:M AA4E:N AA7B:M AA7E:N AAB0:M AAB1:N AAB2:M AAB5:N AAB7:M AAB9:N AABE:M
  AAC0:N AAC1:M AAC2:N AAEB:M AAF0:N AAF5:M AAF7:N ABE3:M ABEB:N ABEC:M ABEE:N FB1E:M FB1F:N FE00:M
  FE10:N FE20:M FE30:N 101FD:M 101FE:N 102E0:M 102E1:N 10376:M 1037B:N 10A01:M 10A04:N 10A05:M
  10A07:N 10A0C:M 10A10:N 10A38:M 10A3B:N 10A3F:M 10A40:N 10AE5:M 10AE7:N 10D24:M 10D28:N 10EAB:M
  10EAD:N 10EFD:M 10F00:N 10F46:M 10F51:N 10F82:M 10F86:N 11000:M 11003:N 11038:M 11047:N 11070:M
  11071:N 11073:M 11075:N 1107F:M 11083:N 110B0:M 110BB:N 110C2:M 110C3:N 11100:M 11103:N 11127:M
  11135:N 11145:M 11147:N 11173:M 11174:N 11180:M 11183:N 111B3:M 111C1:N 111C9:M 111CD:N 111CE:M
  111D0:N 1122C:M 11238:N 1123E:M 1123F:N 11241:M 11242:N 112DF:M 112EB:N 11300:M 11304:N 1133B:M
  1133D:N 1133E:M 11345:N 11347:M 11349:N 1134B:M 1134E:N 11357:M 11358:N 11362:M 11364:N 11366:M
  1136D:N 11370:M 11375:N 11435:M 11447:N 1145E:M 1145F:N 114B0:M 114C4:N 115AF:M 115B6:N 115B8:M
  115C1:N 115DC:M 115DE:N 11630:M 11641:N 116AB:M 116B8:N 1171D:M 1172C:N 1182C:M 1183B:N 11930:M
  11936:N 11937:M 11939:N 1193B:M 1193F:N 11940:M 11941:N 11942:M 11944:N 119D1:M 119D8:N 119DA:M
  119E1:N 119E4:M 119E5:N 11A01:M 11A0B:N 11A33:M 11A3A:N 11A3B:M 11A3F:N 11A47:M 11A48:N 11A51:M
  11A5C:N 11A8A:M 11A9A:N 11C2F:M 11C37:N 11C38:M 11C40:N 11C92:M 11CA8:N 11CA9:M 11CB7:N 11D31:M
  11D37:N 11D3A:M 11D3B:N 11D3C:M 11D3E:N 11D3F:M 11D46:N 11D47:M 11D48:N 11D8A:M 11D8F:N 11D90:M
  11D92:N 11D93:M 11D98:N 11EF3:M 11EF7:N 11F00:M 11F02:N 11F03:M 11F04:N 11F34:M 11F3B:N 11F3E:M
  11F43:N 13440:M 13441:N 13447:M 13456:N 16AF0:M 16AF5:N 16B30:M 16B37:N 16F4F:M 16F50:N 16F51:M
  16F88:N 16F8F:M 16F93:N 16FE4:M 16FE5:N 16FF0:M 16FF2:N 1BC9D:M 1BC9F:N 1CF00:M 1CF2E:N 1CF30:M
  1CF47:N 1D165:M 1D16A:N 1D16D:M 1D173:N 1D17B:M 1D183:N 1D185:M 1D18C:N 1D1AA:M 1D1AE:N 1D242:M
  1D245:N 1DA00:M 1DA37:N 1DA3B:M 1DA6D:N 1DA75:M 1DA76:N 1DA84:M 1DA85:N 1DA9B:M 1DAA0:N 1DAA1:M
  1DAB0:N 1E000:M 1E007:N 1E008:M 1E019:N 1E01B:M 1E022:N 1E023:M 1E025:N 1E026:M 1E02B:N 1E08F:M
  1E090:N 1E130:M 1E137:N 1E2AE:M 1E2AF:N 1E2EC:M 1E2F0:N 1E4EC:M 1E4F0:N 1E8D0:M 1E8D7:N 1E944:M
  1E94B:N E0100:M E01F0:N"

end Rebadge.Text.Unicode
